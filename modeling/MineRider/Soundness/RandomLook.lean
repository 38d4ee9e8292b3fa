import Mathlib.Data.Rat.Floor
import MineRider.Model.Minecraft.Controller

/-! # The time between two random looks

A random look draws an interval in milliseconds, cuts it to whole ticks, and counts them down. The countdown is
tested before it is lowered, so that the next look comes one tick after the ticks counted: later than the drawn
interval, and later than the longest one whenever the last whole tick of that is drawn. Ticks are a 32-bit number,
so that an interval of 2^32 ticks or more starts from zero again.
-/

namespace MineRider.Soundness.RandomLook

open Model.Minecraft Model.Minecraft.Controller

variable {K G : Type}

section Drawing

/-- The interval a look draws, in milliseconds. -/
def drawn (random : Random K G) (config : RandomLookConfig) (rng : G) : ℕ :=
  let minMs := max (asMillis config.minInterval) 50
  let maxMs := max (asMillis config.maxInterval) minMs
  if maxMs > minMs then (random.genRange minMs maxMs rng).1 else minMs

def InRange (random : Random K G) : Prop :=
  ∀ low high rng, low ≤ high → low ≤ (random.genRange low high rng).1 ∧ (random.genRange low high rng).1 ≤ high

private theorem drawn_bounds {random : Random K G} (inRange : InRange random) (config : RandomLookConfig) (rng : G) :
    max (asMillis config.minInterval) 50 ≤ drawn random config rng ∧
      drawn random config rng ≤ max (asMillis config.maxInterval) (max (asMillis config.minInterval) 50) := by
  simp only [drawn]
  split_ifs with wide
  · exact inRange _ _ rng wide.le
  · exact ⟨le_refl _, le_max_right _ _⟩

private theorem randomIntervalTicks_eq (random : Random K G) (config : RandomLookConfig) (rng : G) :
    (randomIntervalTicks random config rng).1 = max (drawn random config rng / 50) 1 % 2 ^ 32 := by
  have tick : max (asMillis tickDuration) 1 = 50 := by decide
  simp only [randomIntervalTicks, drawn, tick]
  split_ifs <;> rfl

private theorem intervals_ordered {config : RandomLookConfig} (valid : config.validate = .ok ()) :
    config.minInterval ≤ config.maxInterval := by
  by_contra disordered
  rw [RandomLookConfig.validate] at valid
  simp only [if_pos (not_le.mp disordered)] at valid
  split_ifs at valid <;> cases valid

/-- The draw leaves room for the tick that is not counted, or is so long that the count starts again and still
reaches the shortest interval. -/
def Punctual (config : RandomLookConfig) (drawn : ℕ) : Prop :=
  (config.minInterval < 2 ^ 64 * 1000000 ∧ drawn < 2 ^ 32 * 50 ∧ drawn / 50 < config.maxInterval / tickDuration) ∨
    (2 ^ 32 * 50 ≤ drawn ∧ config.minInterval ≤ (drawn / 50 % 2 ^ 32 + 1) * tickDuration)

theorem punctual_iff {config : RandomLookConfig} {drawn : ℕ} (slow : tickDuration ≤ config.minInterval)
    (ordered : config.minInterval ≤ config.maxInterval) (low : max (asMillis config.minInterval) 50 ≤ drawn)
    (high : drawn ≤ max (asMillis config.maxInterval) (max (asMillis config.minInterval) 50)) :
    config.minInterval ≤ (max (drawn / 50) 1 % 2 ^ 32 + 1) * tickDuration ∧
      (max (drawn / 50) 1 % 2 ^ 32 + 1) * tickDuration ≤ config.maxInterval ↔ Punctual config drawn := by
  have whole : max (drawn / 50) 1 = drawn / 50 := by omega
  rw [whole, Punctual]
  simp only [tickDuration, asMillis] at slow low high ⊢
  rcases Nat.lt_or_ge drawn (2 ^ 32 * 50) with short | long
  · omega
  · omega

end Drawing

section Countdown

/-- What happens to a controller between two looks. -/
inductive Event (K G : Type) where
  | drive (player : LocalPlayer K)
  | command (entropy : G) (command : BotCommand)

def Event.isDrive : Event K G → Bool
  | .drive _ => true
  | .command .. => false

/-- The random look is not configured anew. -/
def Event.Keeps (event : Event K G) : Prop := ∀ entropy config, event ≠ .command entropy (.setRandomLook config)

variable (numbers : Numbers K) (random : Random K G)

private theorem apply_randomLook (controller : Controller K G) {entropy : G} {command : BotCommand}
    (keeps : (Event.command entropy command : Event K G).Keeps) :
    (controller.apply numbers random entropy command).randomLook = controller.randomLook := by
  cases command with
  | setRandomLook config => exact absurd rfl (keeps entropy config)
  | _ => rfl

variable [Field K] [LinearOrder K] [FloorRing K]

/-- The number of `drive` calls up to the one that changes the look, if there is one. -/
def callsToChange : Controller K G → List (Event K G) → Option ℕ
  | _, [] => none
  | controller, .command entropy command :: rest =>
    callsToChange (controller.apply numbers random entropy command) rest
  | controller, .drive player :: rest =>
    if controller.randomLook.any (·.ticksUntilNext = 0) then some 1
    else (callsToChange (controller.drive numbers random player).1 rest).map (· + 1)

private theorem drive_ticks (controller : Controller K G) (player : LocalPlayer K) :
    ∃ (before : Controller K G) (start : LocalPlayer K), before.randomLook = controller.randomLook ∧
      controller.drive numbers random player = before.tickRandomLook numbers random start := by
  simp only [Controller.drive]
  split
  · exact ⟨_, _, rfl, rfl⟩
  · split_ifs
    · exact ⟨{ controller with goal := none }, _, rfl, rfl⟩
    · exact ⟨_, _, rfl, rfl⟩

variable {controller : Controller K G} {look : RandomLookRuntime G}

private theorem drive_counts
    (armed : controller.randomLook = some look) (waiting : 0 < look.ticksUntilNext) (player : LocalPlayer K) :
    (controller.drive numbers random player).1.randomLook =
      some { look with ticksUntilNext := look.ticksUntilNext - 1 } := by
  obtain ⟨before, start, same, driven⟩ := drive_ticks numbers random controller player
  rw [driven, tickRandomLook, same, armed]
  simp only [if_pos waiting]

private theorem drive_changes
    (armed : controller.randomLook = some look) (due : look.ticksUntilNext = 0) (player : LocalPlayer K) :
    ∃ rng, (controller.drive numbers random player).1.randomLook =
      some ⟨look.config, (randomIntervalTicks random look.config rng).2,
        (randomIntervalTicks random look.config rng).1⟩ := by
  obtain ⟨before, start, same, driven⟩ := drive_ticks numbers random controller player
  rw [driven, tickRandomLook, same, armed]
  simp only [due, gt_iff_lt, lt_self_iff_false, if_false]
  exact ⟨_, rfl⟩

/-- The next look comes with the call after the ticks that are left. -/
theorem callsToChange_eq {events : List (Event K G)} (keeps : ∀ event ∈ events, event.Keeps)
    (armed : controller.randomLook = some look) :
    callsToChange numbers random controller events =
      if look.ticksUntilNext < events.countP Event.isDrive then some (look.ticksUntilNext + 1) else none := by
  induction events generalizing controller look with
  | nil => rw [callsToChange, List.countP_nil, if_neg (Nat.not_lt_zero _)]
  | cons event rest ih =>
    obtain ⟨head, tail⟩ := List.forall_mem_cons.mp keeps
    cases event with
    | command entropy command =>
      rw [callsToChange, ih tail ((apply_randomLook numbers random controller head).trans armed),
        List.countP_cons_of_neg (by simp [Event.isDrive])]
    | drive player =>
      rw [callsToChange, armed, List.countP_cons_of_pos (by rfl)]
      simp only [Option.any_some, decide_eq_true_eq]
      split_ifs with due soon soon
      · rw [due]
      · omega
      · rw [ih tail (drive_counts numbers random armed (Nat.pos_of_ne_zero due) player), if_pos (by dsimp only; omega)]
        simp only [Option.map_some, Option.some.injEq]
        omega
      · rw [ih tail (drive_counts numbers random armed (Nat.pos_of_ne_zero due) player), if_neg (by dsimp only; omega)]
        rfl

/-- From a random look to the next: the look is changed again, and the calls up to it take a time between the two
intervals exactly if the draw of the first look was punctual. -/
theorem looks_in_time_iff {random : Random K G} (inRange : InRange random) {controller : Controller K G}
    {look : RandomLookRuntime G}
    (armed : controller.randomLook = some look) (due : look.ticksUntilNext = 0)
    (valid : look.config.validate = .ok ()) (slow : tickDuration ≤ look.config.minInterval) (player : LocalPlayer K) :
    ∃ rng, (controller.drive numbers random player).1.randomLook =
        some ⟨look.config, (randomIntervalTicks random look.config rng).2,
          (randomIntervalTicks random look.config rng).1⟩ ∧
      ∀ events : List (Event K G), (∀ event ∈ events, event.Keeps) →
        (2 ^ 32 ≤ events.countP Event.isDrive →
          ∃ calls, callsToChange numbers random (controller.drive numbers random player).1 events = some calls) ∧
        ∀ calls, callsToChange numbers random (controller.drive numbers random player).1 events = some calls →
          (look.config.minInterval ≤ calls * tickDuration ∧ calls * tickDuration ≤ look.config.maxInterval ↔
            Punctual look.config (drawn random look.config rng)) := by
  obtain ⟨rng, changed⟩ := drive_changes numbers random armed due player
  refine ⟨rng, changed, ?_⟩
  intro events keeps
  have counted := callsToChange_eq numbers random keeps changed
  rw [randomIntervalTicks_eq] at counted
  refine ⟨?_, ?_⟩
  · intro many
    rw [if_pos (lt_of_lt_of_le (Nat.mod_lt _ (by decide)) many)] at counted
    exact ⟨_, counted⟩
  · intro calls found
    rw [counted] at found
    split_ifs at found
    cases found
    obtain ⟨low, high⟩ := drawn_bounds inRange look.config rng
    exact punctual_iff slow (intervals_ordered valid) low high

end Countdown

section Instances

/-- A generator that draws the least number of a range. -/
def least : Random ℚ Unit := ⟨fun _ => (), fun low _ _ => (low, ()), fun low _ _ => (low, ())⟩

def noNumbers : Numbers ℚ := ⟨fun _ => 0, fun _ => 0, 0, id, id, fun _ _ => 0⟩

/-- Intervals of this many milliseconds. -/
def every (low high : ℕ) : RandomLookConfig := ⟨low * 1000000, high * 1000000, zeroF32, zeroF32, zeroF32, none⟩

/-- A look is due. -/
def dueEvery (low high : ℕ) : Controller ℚ Unit :=
  ⟨.none, none, false, false, false, false, some ⟨every low high, (), 0⟩⟩

def threeTicks : List (Event ℚ Unit) := [.drive .new, .drive .new, .drive .new]

private theorem threeTicks_keep : ∀ event ∈ threeTicks, event.Keeps := by
  simp [threeTicks, Event.Keeps]

private theorem least_inRange : InRange least := fun low _ _ ordered => ⟨le_refl low, ordered⟩

/-- The calls from a look to the next. -/
def callsAfter (controller : Controller ℚ Unit) : Option ℕ :=
  callsToChange noNumbers least (controller.drive noNumbers least .new).1 threeTicks

private theorem drawn_least (high : ℕ) : drawn least (every 100 high) () = 100 := by
  have low : max (asMillis (100 * 1000000)) 50 = 100 := by decide
  simp only [drawn, every, low]
  split_ifs <;> rfl

private theorem callsAfter_dueEvery (high : ℕ) : callsAfter (dueEvery 100 high) = some 3 := by
  have armed : (dueEvery 100 high).randomLook = some ⟨every 100 high, (), 0⟩ := rfl
  obtain ⟨_, changed⟩ := drive_changes noNumbers least armed rfl .new
  rw [callsAfter, callsToChange_eq noNumbers least threeTicks_keep changed, randomIntervalTicks_eq, drawn_least]
  rfl

theorem look_in_time_demo : InRange least ∧ callsAfter (dueEvery 100 200) = some 3 ∧
    (every 100 200).minInterval ≤ 3 * tickDuration ∧ 3 * tickDuration ≤ (every 100 200).maxInterval := by
  have armed : (dueEvery 100 200).randomLook = some ⟨every 100 200, (), 0⟩ := rfl
  obtain ⟨_, -, later⟩ := looks_in_time_iff noNumbers least_inRange armed rfl (by decide) (by decide) .new
  have punctual : Punctual (every 100 200) (drawn least (every 100 200) ()) := .inl (by decide)
  exact ⟨least_inRange, callsAfter_dueEvery 200,
    ((later threeTicks threeTicks_keep).2 3 (callsAfter_dueEvery 200)).mpr punctual⟩

/-- With both intervals at a tenth of a second, the looks are three ticks apart. -/
theorem look_comes_late : InRange least ∧ (every 100 100).validate = .ok () ∧
    tickDuration ≤ (every 100 100).minInterval ∧ callsAfter (dueEvery 100 100) = some 3 ∧
    (every 100 100).maxInterval < 3 * tickDuration :=
  ⟨least_inRange, by decide, by decide, callsAfter_dueEvery 100, by decide⟩

end Instances

end MineRider.Soundness.RandomLook
