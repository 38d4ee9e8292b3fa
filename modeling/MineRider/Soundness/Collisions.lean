import Mathlib.Tactic.Linarith
import Mathlib.Tactic.Ring
import MineRider.Model.Minecraft.Physics

/-! # Movement between obstacles

An entity that stands clear of every obstacle stays clear of them. One axis is clipped at a time, so the
argument is about one axis: two boxes that touch on the other two are apart on this one, and what clipping
leaves of a movement, or any part of it, keeps them apart. Step-up is a composition of clipped movements,
except that its second probe lifts the entity as far as a wider box could be lifted.
-/

namespace MineRider.Soundness.Collisions

open Model.Minecraft Aabb

section Boxes

variable {K : Type} [Field K]

def movedBy (box : Aabb K) (displacement : Vec3 K) : Aabb K := box.moved displacement.x displacement.y displacement.z

theorem movedBy_movedBy (box : Aabb K) (a b : Vec3 K) : movedBy (movedBy box a) b = movedBy box (vecAdd b a) := by
  simp only [movedBy, moved, vecAdd, mk.injEq]
  refine ⟨?_, ?_, ?_, ?_, ?_, ?_⟩ <;> ring

private theorem vecAdd_comm (a b : Vec3 K) : vecAdd a b = vecAdd b a := by
  simp only [vecAdd, add_comm]

variable [LinearOrder K]

/-- The boxes share a point of their interiors. -/
def overlaps (a b : Aabb K) : Bool := intersectsX a b && intersectsY a b && intersectsZ a b

def Clear (box : Aabb K) (boxes : List (Aabb K)) : Prop := ∀ shape ∈ boxes, overlaps box shape = false

/-- `part` has the direction of `whole` and is no longer. -/
def Toward (whole part : K) : Prop := (0 ≤ part ∧ part ≤ whole) ∨ (whole ≤ part ∧ part ≤ 0)

/-- One axis as clipping sees it: the extent of a box, when two boxes touch on the other two axes, and a
displacement along it. -/
structure Axis (K : Type) [Field K] [LinearOrder K] where
  touches : Aabb K → Aabb K → Bool
  low : Aabb K → K
  high : Aabb K → K
  along : K → Vec3 K
  low_movedBy : ∀ box r, low (movedBy box (along r)) = low box + r
  high_movedBy : ∀ box r, high (movedBy box (along r)) = high box + r
  touches_movedBy : ∀ box r shape, touches (movedBy box (along r)) shape = touches box shape
  overlaps_eq : ∀ box shape,
    overlaps box shape = (touches box shape && (decide (high box > low shape) && decide (low box < high shape)))

namespace Axis

def x : Axis K where
  touches := intersectsYz
  low := minX
  high := maxX
  along r := ⟨r, 0, 0⟩
  low_movedBy _ _ := rfl
  high_movedBy _ _ := rfl
  touches_movedBy box r shape := by
    simp [movedBy, moved, intersectsYz, intersectsY, intersectsZ]
  overlaps_eq box shape := by
    simp [overlaps, intersectsYz, intersectsX, Bool.and_comm, Bool.and_assoc]

def y : Axis K where
  touches := intersectsXz
  low := minY
  high := maxY
  along r := ⟨0, r, 0⟩
  low_movedBy _ _ := rfl
  high_movedBy _ _ := rfl
  touches_movedBy box r shape := by
    simp [movedBy, moved, intersectsXz, intersectsX, intersectsZ]
  overlaps_eq box shape := by
    simp [overlaps, intersectsXz, intersectsY, Bool.and_comm, Bool.and_assoc]

def z : Axis K where
  touches := intersectsXy
  low := minZ
  high := maxZ
  along r := ⟨0, 0, r⟩
  low_movedBy _ _ := rfl
  high_movedBy _ _ := rfl
  touches_movedBy box r shape := by
    simp [movedBy, moved, intersectsXy, intersectsX, intersectsY]
  overlaps_eq box shape := rfl

variable (axis : Axis K)

/-- What `clip_x`, `clip_z` and the first loop of `clip_movement` are for their axes. -/
def clip (box : Aabb K) (movement : K) (boxes : List (Aabb K)) : K :=
  boxes.foldl (clipStep axis.touches axis.low axis.high box) movement

/-- Displaced by `r`, the box lies before or behind the shape. -/
def Apart (box : Aabb K) (r : K) (shape : Aabb K) : Prop :=
  axis.high box + r ≤ axis.low shape ∨ axis.high shape ≤ axis.low box + r

private theorem overlaps_movedBy (box : Aabb K) (r : K) (shape : Aabb K) :
    overlaps (movedBy box (axis.along r)) shape = false ↔ (axis.touches box shape = true → axis.Apart box r shape) := by
  rw [axis.overlaps_eq, axis.touches_movedBy, axis.high_movedBy, axis.low_movedBy, Apart]
  cases axis.touches box shape <;> simp [imp_iff_not_or]

end Axis

end Boxes

section Toward

variable {K : Type} [Field K] [LinearOrder K]

theorem Toward.refl (whole : K) : Toward whole whole := by
  rcases le_total 0 whole with forward | backward
  · exact .inl ⟨forward, le_rfl⟩
  · exact .inr ⟨le_rfl, backward⟩

/-- Nothing but no movement at all is a part of no movement. -/
theorem Toward.of_zero {part : K} (still : Toward 0 part) : part = 0 := by
  rcases still with ⟨lower, upper⟩ | ⟨lower, upper⟩
  all_goals exact le_antisymm upper lower

section

variable {whole part : K} (toward : Toward whole part)

include toward

theorem Toward.nonneg (forward : 0 ≤ whole) : 0 ≤ part := by
  rcases toward with ⟨lower, _⟩ | ⟨lower, _⟩
  · exact lower
  · exact forward.trans lower

theorem Toward.nonpos (backward : whole ≤ 0) : part ≤ 0 := by
  rcases toward with ⟨_, upper⟩ | ⟨_, upper⟩
  · exact upper.trans backward
  · exact upper

theorem Toward.le_max : part ≤ max whole 0 := by
  rcases toward with ⟨_, upper⟩ | ⟨_, upper⟩
  · exact upper.trans (le_max_left ..)
  · exact upper.trans (le_max_right ..)

end

theorem Toward.trans {whole middle part : K} (first : Toward whole middle) (second : Toward middle part) :
    Toward whole part := by
  rcases first with ⟨forward, shorter⟩ | ⟨shorter, backward⟩
  · refine .inl ⟨second.nonneg forward, ?_⟩
    exact second.le_max.trans ((max_eq_left forward).le.trans shorter)
  · refine .inr ⟨?_, second.nonpos backward⟩
    rcases second with ⟨lower, _⟩ | ⟨lower, _⟩
    · exact shorter.trans (backward.trans lower)
    · exact shorter.trans lower

end Toward

section OneAxis

variable {K : Type} [Field K] [LinearOrder K] [IsStrictOrderedRing K]

/-- A fraction of a movement. -/
theorem Toward.fraction {t : K} (lower : 0 ≤ t) (upper : t ≤ 1) (whole : K) : Toward whole (t * whole) := by
  rcases le_total 0 whole with forward | backward
  · exact .inl ⟨mul_nonneg lower forward, mul_le_of_le_one_left forward upper⟩
  · refine .inr ⟨?_, mul_nonpos_of_nonneg_of_nonpos lower backward⟩
    nlinarith

namespace Axis

variable (axis : Axis K) {box shape : Aabb K} {boxes : List (Aabb K)}

private theorem clipStep_toward (box : Aabb K) (movement : K) (shape : Aabb K) :
    Toward movement (clipStep axis.touches axis.low axis.high box movement shape) := by
  unfold clipStep
  split_ifs with touching forward backward
  · exact .inl ⟨le_min forward.1.le (sub_nonneg.mpr forward.2), min_le_left ..⟩
  · exact .inr ⟨le_max_left .., max_le backward.1.le (sub_nonpos.mpr backward.2)⟩
  · exact .refl movement
  · exact .refl movement

private theorem clip_toward (box : Aabb K) (movement : K) (boxes : List (Aabb K)) :
    Toward movement (axis.clip box movement boxes) := by
  induction boxes generalizing movement with
  | nil => exact .refl movement
  | cons shape rest ih => exact (axis.clipStep_toward box movement shape).trans (ih _)

variable {movement r : K}

/-- Whatever is left of a clipped movement keeps the two boxes apart. -/
theorem clipStep_apart (touching : axis.touches box shape = true) (apart : axis.Apart box 0 shape)
    (toward : Toward (clipStep axis.touches axis.low axis.high box movement shape) r) : axis.Apart box r shape := by
  unfold clipStep at toward
  split_ifs at toward with forward backward
  · have bound : r ≤ axis.low shape - axis.high box := by
      have limit := sub_nonneg.mpr forward.2
      rcases toward with ⟨_, upper⟩ | ⟨_, upper⟩
      · exact upper.trans (min_le_right ..)
      · exact upper.trans limit
    exact .inl (by linarith)
  · have bound : axis.high shape - axis.low box ≤ r := by
      have limit := sub_nonpos.mpr backward.2
      rcases toward with ⟨lower, _⟩ | ⟨lower, _⟩
      · exact limit.trans lower
      · exact (le_max_right ..).trans lower
    exact .inr (by linarith)
  · -- the movement leads away from the shape, or nowhere
    rw [not_and_or, not_lt, not_le] at forward backward
    rcases toward with ⟨lower, upper⟩ | ⟨lower, upper⟩
    · rcases apart with before | behind
      · rcases forward with still | past
        · exact .inl (by linarith)
        · linarith
      · exact .inr (by linarith)
    · rcases apart with before | behind
      · exact .inl (by linarith)
      · rcases backward with still | past
        · exact .inr (by linarith)
        · linarith

private theorem clip_apart (member : shape ∈ boxes) (touching : axis.touches box shape = true)
    (apart : axis.Apart box 0 shape) (toward : Toward (axis.clip box movement boxes) r) :
    axis.Apart box r shape := by
  induction boxes generalizing movement with
  | nil => cases member
  | cons first rest ih =>
    rcases List.mem_cons.mp member with rfl | later
    · -- the rest of the list only shortens what the shape has left
      exact axis.clipStep_apart touching apart ((axis.clip_toward box _ rest).trans toward)
    · exact ih later toward

/-- Every part of a clipped movement along one axis leads to a clear place. -/
theorem clear_clip (clear : Clear box boxes) (toward : Toward (axis.clip box movement boxes) r) :
    Clear (movedBy box (axis.along r)) boxes := by
  intro shape member
  rw [axis.overlaps_movedBy]
  intro touching
  have apart : axis.Apart box 0 shape := by
    have separate := clear shape member
    rw [axis.overlaps_eq, touching, Bool.true_and, Bool.and_eq_false_iff, decide_eq_false_iff_not,
      decide_eq_false_iff_not, not_lt, not_lt] at separate
    simpa only [Apart, add_zero] using separate
  exact axis.clip_apart member touching apart toward

private theorem clipStep_forward (box : Aabb K) {movement : K} (forward : 0 ≤ movement) (shape : Aabb K) :
    clipStep axis.touches axis.low axis.high box movement shape =
      if axis.touches box shape = true ∧ axis.high box ≤ axis.low shape then
        min movement (axis.low shape - axis.high box)
      else movement := by
  unfold clipStep
  by_cases touching : axis.touches box shape = true
  · rcases forward.eq_or_lt with rfl | moving
    · simp only [touching, true_and, lt_irrefl, false_and, ↓reduceIte]
      split_ifs with before
      · exact (min_eq_left (sub_nonneg.mpr before)).symm
      · rfl
    · simp only [touching, true_and, moving, moving.not_gt, false_and, ↓reduceIte]
  · simp only [touching, false_and, ↓reduceIte, Bool.false_eq_true]

private theorem clipStep_backward (box : Aabb K) {movement : K} (backward : movement ≤ 0) (shape : Aabb K) :
    clipStep axis.touches axis.low axis.high box movement shape =
      if axis.touches box shape = true ∧ axis.low box ≥ axis.high shape then
        max movement (axis.high shape - axis.low box)
      else movement := by
  unfold clipStep
  by_cases touching : axis.touches box shape = true
  · rcases backward.eq_or_lt with rfl | moving
    · simp only [touching, true_and, lt_irrefl, false_and, ↓reduceIte]
      split_ifs with behind
      · exact (max_eq_left (sub_nonpos.mpr behind)).symm
      · rfl
    · simp only [touching, true_and, moving, moving.not_gt, false_and, ↓reduceIte]
  · simp only [touching, false_and, ↓reduceIte, Bool.false_eq_true]

/-- Two obstacles clip a movement alike in either order. -/
theorem clipStep_comm (box : Aabb K) (movement : K) (a b : Aabb K) :
    clipStep axis.touches axis.low axis.high box (clipStep axis.touches axis.low axis.high box movement a) b =
      clipStep axis.touches axis.low axis.high box (clipStep axis.touches axis.low axis.high box movement b) a := by
  rcases le_total 0 movement with forward | backward
  · have nonneg : ∀ shape, 0 ≤ clipStep axis.touches axis.low axis.high box movement shape := by
      intro shape
      exact (axis.clipStep_toward box movement shape).nonneg forward
    rw [axis.clipStep_forward box (nonneg a), axis.clipStep_forward box (nonneg b),
      axis.clipStep_forward box forward, axis.clipStep_forward box forward]
    split_ifs
    · exact min_right_comm ..
    · rfl
    · rfl
    · rfl
  · have nonpos : ∀ shape, clipStep axis.touches axis.low axis.high box movement shape ≤ 0 := by
      intro shape
      exact (axis.clipStep_toward box movement shape).nonpos backward
    rw [axis.clipStep_backward box (nonpos a), axis.clipStep_backward box (nonpos b),
      axis.clipStep_backward box backward, axis.clipStep_backward box backward]
    split_ifs
    · exact max_right_comm ..
    · rfl
    · rfl
    · rfl

private theorem clip_perm {other : List (Aabb K)} (same : boxes.Perm other) (box : Aabb K) (movement : K) :
    axis.clip box movement boxes = axis.clip box movement other :=
  same.foldl_eq' (fun a _ b _ movement => axis.clipStep_comm box movement a b) movement

end Axis

end OneAxis

section Clipping

variable {K : Type} [Field K] [LinearOrder K] [IsStrictOrderedRing K] {box : Aabb K} {boxes : List (Aabb K)}

/-- The displacements on the way of a clipped movement: first up or down, then along the longer of the two
horizontal components that were asked for, then along the other. -/
def OnPath (movement clipped displacement : Vec3 K) : Prop :=
  ∃ t, 0 ≤ t ∧ t ≤ 1 ∧
    (displacement = ⟨0, t * clipped.y, 0⟩ ∨
      if |movement.x| < |movement.z| then
        displacement = ⟨0, clipped.y, t * clipped.z⟩ ∨ displacement = ⟨t * clipped.x, clipped.y, clipped.z⟩
      else displacement = ⟨t * clipped.x, clipped.y, 0⟩ ∨ displacement = ⟨clipped.x, clipped.y, t * clipped.z⟩)

/-- The components of a clipped movement, each clipped where the ones before it lead. -/
structure Legs (box : Aabb K) (movement : Vec3 K) (boxes : List (Aabb K)) (clipped : Vec3 K) : Prop where
  vertical : clipped.y = Axis.y.clip box movement.y boxes
  zFirst : |movement.x| < |movement.z| →
    clipped.z = Axis.z.clip (movedBy box ⟨0, clipped.y, 0⟩) movement.z boxes ∧
      clipped.x = Axis.x.clip (movedBy box ⟨0, clipped.y, clipped.z⟩) movement.x boxes
  xFirst : ¬ |movement.x| < |movement.z| →
    clipped.x = Axis.x.clip (movedBy box ⟨0, clipped.y, 0⟩) movement.x boxes ∧
      clipped.z = Axis.z.clip (movedBy box ⟨clipped.x, clipped.y, 0⟩) movement.z boxes

omit [IsStrictOrderedRing K] in
theorem clipMovement_legs (box : Aabb K) (movement : Vec3 K) (boxes : List (Aabb K)) :
    Legs box movement boxes (clipMovement box movement boxes) := by
  have twice : ∀ a b : Vec3 K, (box.moved a.x a.y a.z).moved b.x b.y b.z = movedBy box (vecAdd b a) :=
    fun a b => movedBy_movedBy box a b
  unfold clipMovement
  split_ifs with longer
  · refine ⟨rfl, fun _ => ⟨rfl, ?_⟩, fun shorter => absurd longer shorter⟩
    have place := twice ⟨0, clipY box movement.y boxes, 0⟩
      ⟨0, 0, clipZ (box.moved 0 (clipY box movement.y boxes) 0) movement.z boxes⟩
    simp only [vecAdd, zero_add, add_zero] at place
    simp only [place]
    rfl
  · refine ⟨rfl, fun shorter => absurd shorter longer, fun _ => ⟨rfl, ?_⟩⟩
    have place := twice ⟨0, clipY box movement.y boxes, 0⟩
      ⟨clipX (box.moved 0 (clipY box movement.y boxes) 0) movement.x boxes, 0, 0⟩
    simp only [vecAdd, zero_add, add_zero] at place
    simp only [place]
    rfl

/-- The clipped movement keeps the direction of every component and lengthens none. -/
theorem clipMovement_toward (box : Aabb K) (movement : Vec3 K) (boxes : List (Aabb K)) :
    Toward movement.x (clipMovement box movement boxes).x ∧ Toward movement.y (clipMovement box movement boxes).y ∧
      Toward movement.z (clipMovement box movement boxes).z := by
  have legs := clipMovement_legs box movement boxes
  by_cases longer : |movement.x| < |movement.z|
  · obtain ⟨z, x⟩ := legs.zFirst longer
    rw [x, z, legs.vertical]
    exact ⟨Axis.clip_toward .., Axis.clip_toward .., Axis.clip_toward ..⟩
  · obtain ⟨x, z⟩ := legs.xFirst longer
    rw [z, x, legs.vertical]
    exact ⟨Axis.clip_toward .., Axis.clip_toward .., Axis.clip_toward ..⟩

private theorem clipMovement_perm {other : List (Aabb K)} (same : boxes.Perm other) (box : Aabb K) (movement : Vec3 K) :
    clipMovement box movement boxes = clipMovement box movement other := by
  have x := fun box movement => Axis.x.clip_perm same box movement
  have y := fun box movement => Axis.y.clip_perm same box movement
  have z := fun box movement => Axis.z.clip_perm same box movement
  simp only [Axis.clip, Axis.x, Axis.y, Axis.z] at x y z
  simp only [clipMovement, clipX, clipY, clipZ, x, y, z]

/-- One leg of a path, from the place where it begins. -/
theorem clear_leg (axis : Axis K) {start : Vec3 K} (clear : Clear (movedBy box start) boxes) {movement r : K}
    (toward : Toward (axis.clip (movedBy box start) movement boxes) r) :
    Clear (movedBy box (vecAdd (axis.along r) start)) boxes := by
  rw [← movedBy_movedBy]
  exact axis.clear_clip clear toward

/-- Every point of the path of a clipped movement is clear. -/
theorem clear_path (clear : Clear box boxes) (movement displacement : Vec3 K)
    (on : OnPath movement (clipMovement box movement boxes) displacement) : Clear (movedBy box displacement) boxes := by
  have legs := clipMovement_legs box movement boxes
  generalize clipMovement box movement boxes = clipped at legs on
  obtain ⟨t, lower, upper, on⟩ := on
  have up : ∀ r, Toward clipped.y r → Clear (movedBy box ⟨0, r, 0⟩) boxes := by
    intro r toward
    rw [legs.vertical] at toward
    exact Axis.y.clear_clip clear toward
  rcases on with rfl | on
  · exact up _ (.fraction lower upper _)
  have start := up clipped.y (.refl _)
  split_ifs at on with longer
  · obtain ⟨z, x⟩ := legs.zFirst longer
    have across : ∀ r, Toward clipped.z r → Clear (movedBy box ⟨0, clipped.y, r⟩) boxes := by
      intro r toward
      rw [z] at toward
      simpa [vecAdd, Axis.z] using clear_leg Axis.z start toward
    rcases on with rfl | rfl
    · exact across _ (.fraction lower upper _)
    · have toward := Toward.fraction lower upper clipped.x
      nth_rewrite 1 [x] at toward
      simpa [vecAdd, Axis.x] using clear_leg Axis.x (across _ (.refl _)) toward
  · obtain ⟨x, z⟩ := legs.xFirst longer
    have across : ∀ r, Toward clipped.x r → Clear (movedBy box ⟨r, clipped.y, 0⟩) boxes := by
      intro r toward
      rw [x] at toward
      simpa [vecAdd, Axis.x] using clear_leg Axis.x start toward
    rcases on with rfl | rfl
    · exact across _ (.fraction lower upper _)
    · have toward := Toward.fraction lower upper clipped.z
      nth_rewrite 1 [z] at toward
      simpa [vecAdd, Axis.z] using clear_leg Axis.z (across _ (.refl _)) toward

/-- The end of the path. -/
theorem clear_clipMovement (clear : Clear box boxes) (movement : Vec3 K) :
    Clear (movedBy box (clipMovement box movement boxes)) boxes := by
  refine clear_path clear movement _ ⟨1, zero_le_one, le_rfl, .inr ?_⟩
  split_ifs
  all_goals exact .inr (by simp only [one_mul])

end Clipping

section StepUp

variable {K : Type} [Field K] [LinearOrder K] [IsStrictOrderedRing K] {box : Aabb K} {boxes : List (Aabb K)}

/-- How far the second probe lifts the entity: straight up, and no further than the step. -/
theorem clipMovement_vertical (box : Aabb K) (height : K) (boxes : List (Aabb K)) :
    (clipMovement box ⟨0, height, 0⟩ boxes).x = 0 ∧ (clipMovement box ⟨0, height, 0⟩ boxes).z = 0 ∧
      Toward height (clipMovement box ⟨0, height, 0⟩ boxes).y := by
  obtain ⟨x, y, z⟩ := clipMovement_toward box ⟨0, height, 0⟩ boxes
  exact ⟨x.of_zero, z.of_zero, y⟩

private theorem touches_expandTowards {shape : Aabb K} (dx dz : K) (touching : Axis.y.touches box shape = true) :
    Axis.y.touches (box.expandTowards dx 0 dz) shape = true := by
  simp only [Axis.y, intersectsXz, intersectsX, intersectsZ, expandTowards, Bool.and_eq_true,
    decide_eq_true_eq] at touching ⊢
  have left := min_le_right dx (0 : K)
  have right := le_max_right dx (0 : K)
  have back := min_le_right dz (0 : K)
  have front := le_max_right dz (0 : K)
  refine ⟨⟨?_, ?_⟩, ?_, ?_⟩ <;> linarith

/-- A box can be lifted wherever a wider box around it can. -/
theorem clear_lift (clear : Clear box boxes) (dx dz height : K) :
    Clear (movedBy box (clipMovement (box.expandTowards dx 0 dz) ⟨0, height, 0⟩ boxes)) boxes := by
  obtain ⟨x, z, _⟩ := clipMovement_vertical (box.expandTowards dx 0 dz) height boxes
  have vertical := (clipMovement_legs (box.expandTowards dx 0 dz) ⟨0, height, 0⟩ boxes).vertical
  generalize clipMovement (box.expandTowards dx 0 dz) ⟨0, height, 0⟩ boxes = lift at x z vertical
  obtain ⟨liftX, liftY, liftZ⟩ := lift
  obtain rfl : liftX = 0 := x
  obtain rfl : liftZ = 0 := z
  intro shape member
  refine (Axis.y.overlaps_movedBy box liftY shape).mpr fun touching => ?_
  have apart : Axis.y.Apart box 0 shape := by
    refine (Axis.y.overlaps_movedBy box 0 shape).mp ?_ touching
    simpa [movedBy, moved, Axis.y] using clear shape member
  have wide : Axis.y.Apart (box.expandTowards dx 0 dz) 0 shape := by
    simpa [Axis.Apart, Axis.y, expandTowards] using apart
  have lift : Toward (Axis.y.clip (box.expandTowards dx 0 dz) height boxes) liftY := by
    rw [← vertical]
    exact .refl liftY
  have lifted := Axis.y.clip_apart member (touches_expandTowards dx dz touching) wide lift
  simpa [Axis.Apart, Axis.y, expandTowards] using lifted

/-- Both ways up a step end in a clear place, no higher than the step. -/
theorem stepUp_clear (clear : Clear box boxes) (movement : Vec3 K) {stepHeight : K} (up : 0 ≤ stepHeight) :
    Clear (movedBy box (stepUp box movement stepHeight boxes)) boxes ∧
      (stepUp box movement stepHeight boxes).y ≤ stepHeight := by
  have whole := clear_clipMovement clear ⟨movement.x, stepHeight, movement.z⟩
  obtain ⟨_, height, _⟩ := clipMovement_toward box ⟨movement.x, stepHeight, movement.z⟩ boxes
  have low := height.le_max.trans (max_eq_left up).le
  unfold stepUp
  simp only
  split_ifs with shorter farther
  · have lifted := clear_lift clear movement.x movement.z stepHeight
    have after := clear_clipMovement lifted ⟨movement.x, 0, movement.z⟩
    rw [movedBy_movedBy] at after
    obtain ⟨_, still, _⟩ := clipMovement_toward
      (movedBy box (clipMovement (box.expandTowards movement.x 0 movement.z) ⟨0, stepHeight, 0⟩ boxes))
      ⟨movement.x, 0, movement.z⟩ boxes
    refine ⟨after, ?_⟩
    have flat := still.of_zero
    simp only [movedBy] at flat
    simp only [vecAdd, flat, zero_add]
    exact shorter.le
  all_goals exact ⟨whole, low⟩

omit [IsStrictOrderedRing K] in
/-- What `collide_with_step` moves by: the plain clipped movement, or a step up that leads farther and the
way down from there. -/
theorem collideWithStep_cases (box : Aabb K) (movement : Vec3 K) (stepHeight : K) (onGround : Bool)
    (boxes : List (Aabb K)) :
    (collideWithStep box movement stepHeight onGround boxes).movement = clipMovement box movement boxes ∨
      horizontalSqr (stepUp box movement stepHeight boxes) > horizontalSqr (clipMovement box movement boxes) ∧
        (collideWithStep box movement stepHeight onGround boxes).movement =
          vecAdd (stepUp box movement stepHeight boxes)
            (clipMovement (movedBy box (stepUp box movement stepHeight boxes))
              ⟨0, -(stepUp box movement stepHeight boxes).y + movement.y, 0⟩ boxes) := by
  unfold collideWithStep
  simp only
  split_ifs with steps
  · exact .inr ⟨steps.2.2.2, rfl⟩
  · exact .inl rfl

/-- Movement between obstacles, with and without step-up. -/
theorem movement_stays_clear (clear : Clear box boxes) (movement : Vec3 K) {stepHeight : K} (up : 0 ≤ stepHeight)
    (onGround : Bool) :
    Clear (movedBy box (collide box movement boxes).movement) boxes ∧
    Clear (movedBy box (collideWithStep box movement stepHeight onGround boxes).movement) boxes ∧
    (Toward movement.x (clipMovement box movement boxes).x ∧ Toward movement.y (clipMovement box movement boxes).y ∧
      Toward movement.z (clipMovement box movement boxes).z) ∧
    (∀ other, boxes.Perm other → clipMovement box movement boxes = clipMovement box movement other) ∧
    (∀ displacement, OnPath movement (clipMovement box movement boxes) displacement →
      Clear (movedBy box displacement) boxes) ∧
    horizontalSqr (clipMovement box movement boxes) ≤
      horizontalSqr (collideWithStep box movement stepHeight onGround boxes).movement ∧
    (collideWithStep box movement stepHeight onGround boxes).movement.y ≤ max stepHeight movement.y := by
  have base := clear_clipMovement clear movement
  have toward := clipMovement_toward box movement boxes
  obtain ⟨stepClear, low⟩ := stepUp_clear clear movement up
  have settled := clear_clipMovement stepClear ⟨0, -(stepUp box movement stepHeight boxes).y + movement.y, 0⟩
  obtain ⟨x, z, down⟩ := clipMovement_vertical (movedBy box (stepUp box movement stepHeight boxes))
    (-(stepUp box movement stepHeight boxes).y + movement.y) boxes
  refine ⟨base, ?_, toward, fun other same => clipMovement_perm same box movement,
    fun displacement on => clear_path clear movement displacement on, ?_, ?_⟩
  · rcases collideWithStep_cases box movement stepHeight onGround boxes with plain | ⟨_, stepped⟩
    · rw [plain]
      exact base
    · rw [movedBy_movedBy, vecAdd_comm] at settled
      rw [stepped]
      exact settled
  · rcases collideWithStep_cases box movement stepHeight onGround boxes with plain | ⟨farther, stepped⟩
    · rw [plain]
    · rw [stepped]
      refine farther.le.trans (le_of_eq ?_)
      simp only [horizontalSqr, vecAdd, x, z, add_zero]
  · rcases collideWithStep_cases box movement stepHeight onGround boxes with plain | ⟨_, stepped⟩
    · rw [plain]
      refine toward.2.1.le_max.trans (max_le (le_max_right ..) (up.trans (le_max_left ..)))
    · rw [stepped]
      simp only [vecAdd]
      have settle := down.le_max
      rcases max_cases (-(stepUp box movement stepHeight boxes).y + movement.y) 0 with ⟨same, _⟩ | ⟨same, _⟩
      · exact le_max_of_le_right (by linarith)
      · exact le_max_of_le_left (by linarith)

/-- A player walks against a slab and ends on top of it. -/
theorem movement_stays_clear_demo :
    Clear (movedBy (⟨0, 0, 0, 1, 2, 1⟩ : Aabb ℚ) ⟨1, 1 / 2, 0⟩) [⟨1, 0, 0, 2, 1 / 2, 1⟩] := by
  have clear : Clear (⟨0, 0, 0, 1, 2, 1⟩ : Aabb ℚ) [⟨1, 0, 0, 2, 1 / 2, 1⟩] := by
    unfold Clear
    decide +kernel
  have moved : (collideWithStep (⟨0, 0, 0, 1, 2, 1⟩ : Aabb ℚ) ⟨1, -1 / 10, 0⟩ (6 / 10) true
      [⟨1, 0, 0, 2, 1 / 2, 1⟩]).movement = ⟨1, 1 / 2, 0⟩ := by decide +kernel
  rw [← moved]
  exact (movement_stays_clear clear ⟨1, -1 / 10, 0⟩ (by decide +kernel) true).2.1

end StepUp

end MineRider.Soundness.Collisions
