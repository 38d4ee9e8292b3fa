import MineRider.Machine.Callers
import MineRider.Machine.Run
import MineRider.Model.Lua.Shared

/-! # Updates of the shared state

`update` relies on versions to see whether somebody else has written since its read. The version of a key is
the number of its writes, less one if the key was created by `set`; a key that does not exist reads as version
0, which is also the version that `set` creates it with. So an update that found no key cannot tell that a
`set` has created it, and overwrites that value. Where no key is created under an update that has read it as
absent, and fewer than `2 ^ 64` writes fall into one update, versions separate all states an update can see.
-/

namespace MineRider.Soundness.SharedUpdates

open List Model.Lua Machine

section Statement

/-- The writes to one key. -/
def writesTo (key : String) (writes : List SharedWrite) : List SharedWrite := writes.filter (·.key = key)

def latest (key : String) (writes : List SharedWrite) : Option SharedValue :=
  (writesTo key writes).getLast?.map SharedWrite.value

/-- An update whose write comes after the writes `before`: nobody has written to its key since its read, and it
was computed from the value before it. -/
structure Atomic (key : String) (read : Reading) (before : List SharedWrite) : Prop where
  seen : read.seen ≤ before.length
  undisturbed : writesTo key (before.drop read.seen) = []
  current : read.current = (latest key before).getD .nil

structure Serialized (c : Sharing) : Prop where
  /-- No write is lost: what is stored is the last write. -/
  stored : ∀ key, c.state.get key = latest key c.writes
  atomic : ∀ before write after caller read, c.writes = before ++ write :: after →
    write.origin = .update caller read → Atomic write.key read before
  /-- An update that succeeds has written what it returns. -/
  answered : Each (fun caller call => ∀ value, call.stage = .returned (.updated value) →
    ∃ read, ⟨call.key, value, .update caller read⟩ ∈ c.writes) c.updates

/-- What an update between its read and its compare-and-swap has read. -/
def reading? : UpdateStage → Option Reading
  | .calling read | .swapping read _ => some read
  | .reading | .returned _ => none

/-- `set` creates no key that an update in progress has not found, and an update goes on before its key was
written `2 ^ 64` times. -/
def Separated (c : Sharing) : SharedStep → Prop
  | .set key _ => key ∉ c.state.store → ∀ call ∈ c.updates, call.key = key → (reading? call.stage).isNone = true
  | .resume caller _ => ∀ call ∈ c.updates[caller]?, ∀ read ∈ reading? call.stage,
    (writesTo call.key (c.writes.drop read.seen)).length < 2 ^ 64
  | .get _ | .update _ => True

instance (c : Sharing) : ∀ step, Decidable (Separated c step)
  | .set key _ => inferInstanceAs (Decidable (key ∉ c.state.store → ∀ call ∈ c.updates, call.key = key → _))
  | .resume caller _ => inferInstanceAs (Decidable (∀ call ∈ c.updates[caller]?, ∀ read ∈ reading? call.stage, _))
  | .get _ | .update _ => .isTrue trivial

end Statement

section Histories

variable {key : String} {writes since : List SharedWrite} {entry : SharedWrite}

theorem writesTo_append (key : String) (writes since : List SharedWrite) :
    writesTo key (writes ++ since) = writesTo key writes ++ writesTo key since := filter_append ..

theorem writesTo_snoc_self (writes : List SharedWrite) (entry : SharedWrite) :
    writesTo entry.key (writes ++ [entry]) = writesTo entry.key writes ++ [entry] := by
  simp [writesTo]

private theorem writesTo_snoc_other (other : entry.key ≠ key) (writes : List SharedWrite) :
    writesTo key (writes ++ [entry]) = writesTo key writes := by
  simp [writesTo, other]

private theorem latest_snoc_self (writes : List SharedWrite) (entry : SharedWrite) :
    latest entry.key (writes ++ [entry]) = some entry.value := by
  simp [latest, writesTo_snoc_self]

theorem latest_eq_none : latest key writes = none ↔ writesTo key writes = [] := by
  simp [latest]

def isSet : WriteOrigin → Bool
  | .set => true
  | .update _ _ => false

/-- The key was created by `set`. -/
def bySet (key : String) (writes : List SharedWrite) : Bool :=
  (writesTo key writes).head?.any fun first => isSet first.origin

/-- The version that the writes have given to a key. -/
def versionOf (key : String) (writes : List SharedWrite) : UInt64 :=
  .ofNat ((writesTo key writes).length - (bySet key writes).toNat)

theorem bySet_of_unwritten (unwritten : writesTo key writes = []) : bySet key writes = false := by
  rw [bySet, unwritten]
  rfl

private theorem versionOf_of_unwritten (unwritten : writesTo key writes = []) : versionOf key writes = 0 := by
  simp [versionOf, unwritten]

/-- Who has created a key does not change. -/
theorem bySet_append (written : writesTo key writes ≠ []) (since : List SharedWrite) :
    bySet key (writes ++ since) = bySet key writes := by
  obtain ⟨first, rest, cons⟩ := exists_cons_of_ne_nil written
  simp [bySet, writesTo_append, cons]

private theorem bySet_le_length (key : String) (writes : List SharedWrite) :
    (bySet key writes).toNat ≤ (writesTo key writes).length := by
  by_cases unwritten : writesTo key writes = []
  · simp [bySet_of_unwritten unwritten]
  · exact (Bool.toNat_le _).trans (length_pos_of_ne_nil unwritten)

private theorem writesTo_first (unwritten : writesTo entry.key writes = []) :
    writesTo entry.key (writes ++ [entry]) = [entry] := by
  rw [writesTo_snoc_self, unwritten, nil_append]

theorem bySet_first (unwritten : writesTo entry.key writes = []) :
    bySet entry.key (writes ++ [entry]) = isSet entry.origin := by
  rw [bySet, writesTo_first unwritten]
  rfl

/-- `set` creates a key with version 0. -/
theorem versionOf_created (entry : SharedWrite) (unwritten : writesTo entry.key writes = [])
    (created : isSet entry.origin = true) : versionOf entry.key (writes ++ [entry]) = 0 := by
  rw [versionOf, bySet_first unwritten, writesTo_first unwritten, created]
  rfl

/-- Every other write increments the version. -/
theorem versionOf_snoc (entry : SharedWrite) (counted : writesTo entry.key writes = [] → isSet entry.origin = false) :
    versionOf entry.key (writes ++ [entry]) = versionOf entry.key writes + 1 := by
  have same : bySet entry.key (writes ++ [entry]) = bySet entry.key writes := by
    by_cases unwritten : writesTo entry.key writes = []
    · rw [bySet_first unwritten, bySet_of_unwritten unwritten, counted unwritten]
    · exact bySet_append unwritten _
  have fits := bySet_le_length entry.key writes
  rw [versionOf, versionOf, same, writesTo_snoc_self, length_append, length_singleton,
    Nat.sub_add_comm fits, UInt64.ofNat_add]
  rfl

/-- Equal versions mean that nothing was written since, unless `set` has created the key since. -/
theorem unwritten_of_versionOf_eq (same : versionOf key (writes ++ since) = versionOf key writes)
    (few : (writesTo key since).length < 2 ^ 64)
    (created : writesTo key writes = [] → bySet key (writes ++ since) = false) : writesTo key since = [] := by
  have unchanged : bySet key (writes ++ since) = bySet key writes := by
    by_cases unwritten : writesTo key writes = []
    · rw [created unwritten, bySet_of_unwritten unwritten]
    · exact bySet_append unwritten since
  have fits := bySet_le_length key writes
  have congruent := congrArg UInt64.toNat same
  rw [versionOf, versionOf, unchanged, writesTo_append, length_append, UInt64.toNat_ofNat',
    UInt64.toNat_ofNat'] at congruent
  exact eq_nil_of_length_eq_zero (by omega)

end Histories

section Readings

variable {key : String} {read : Reading} {writes : List SharedWrite} {entry : SharedWrite}

/-- A reading is what the writes it has seen have left, and the key was not created by `set` since. -/
structure Current (key : String) (read : Reading) (writes : List SharedWrite) : Prop where
  seen : read.seen ≤ writes.length
  current : read.current = (latest key (writes.take read.seen)).getD .nil
  version : read.version = versionOf key (writes.take read.seen)
  created : writesTo key (writes.take read.seen) = [] → bySet key writes = false

theorem Current.snoc (isCurrent : Current key read writes)
    (updated : entry.key = key → writesTo key writes = [] → isSet entry.origin = false) :
    Current key read (writes ++ [entry]) := by
  have before : (writes ++ [entry]).take read.seen = writes.take read.seen :=
    take_append_of_le_length isCurrent.seen
  refine ⟨isCurrent.seen.trans (by simp), ?_, ?_, ?_⟩
  · rw [before]
    exact isCurrent.current
  · rw [before]
    exact isCurrent.version
  · rw [before]
    intro absent
    by_cases other : entry.key = key
    · by_cases unwritten : writesTo key writes = []
      · subst other
        exact (bySet_first unwritten).trans (updated rfl unwritten)
      · rw [bySet_append unwritten]
        exact isCurrent.created absent
    · rw [bySet, writesTo_snoc_other other]
      exact isCurrent.created absent

/-- An update whose version still holds writes right after what it has read. -/
theorem Current.atomic (isCurrent : Current key read writes) (same : versionOf key writes = read.version)
    (few : (writesTo key (writes.drop read.seen)).length < 2 ^ 64) : Atomic key read writes := by
  have split := take_append_drop read.seen writes
  have undisturbed : writesTo key (writes.drop read.seen) = [] := by
    have unchanged : versionOf key (writes.take read.seen ++ writes.drop read.seen) =
        versionOf key (writes.take read.seen) := by rw [split, same, isCurrent.version]
    refine unwritten_of_versionOf_eq unchanged few ?_
    rw [split]
    exact isCurrent.created
  refine ⟨isCurrent.seen, undisturbed, ?_⟩
  rw [isCurrent.current, latest, latest]
  nth_rewrite 2 [← split]
  rw [writesTo_append, undisturbed, append_nil]

end Readings

section Steps

structure Inv (c : Sharing) : Prop where
  stored : ∀ key, c.state.store.lookup key = (latest key c.writes).map fun value => ⟨value, versionOf key c.writes⟩
  current : Each (fun _ call => ∀ read, reading? call.stage = some read → Current call.key read c.writes) c.updates
  atomic : ∀ before write after caller read, c.writes = before ++ write :: after →
    write.origin = .update caller read → Atomic write.key read before
  answered : Each (fun caller call => ∀ value, call.stage = .returned (.updated value) →
    ∃ read, ⟨call.key, value, .update caller read⟩ ∈ c.writes) c.updates

variable {c : Sharing} {key : String} {caller : ℕ} {call : UpdateCall} {value : SharedValue} {read : Reading}

theorem Inv.new : Inv .new where
  stored _ := rfl
  current := .nil
  atomic before write after caller read split _ := absurd split (by simp [Sharing.new])
  answered := .nil

section

variable (inv : Inv c)

include inv

theorem Inv.readForUpdate (key : String) :
    c.state.readForUpdate key = ((latest key c.writes).getD .nil, versionOf key c.writes) := by
  rw [SharedState.readForUpdate, inv.stored]
  cases last : latest key c.writes with
  | none => rw [versionOf_of_unwritten (latest_eq_none.mp last)]; rfl
  | some value => rfl

theorem Inv.currentVersion (key : String) : c.state.currentVersion key = versionOf key c.writes := by
  rw [SharedState.currentVersion, inv.stored]
  cases last : latest key c.writes with
  | none => rw [versionOf_of_unwritten (latest_eq_none.mp last)]; rfl
  | some value => rfl

theorem Inv.not_mem_store (unwritten : writesTo key c.writes = []) : key ∉ c.state.store := by
  rw [← AList.lookup_eq_none, inv.stored, latest_eq_none.mpr unwritten]
  rfl

/-- A write takes effect. -/
theorem Inv.write (entry : SharedWrite) {version : UInt64} (next : version = versionOf entry.key (c.writes ++ [entry]))
    (alone : writesTo entry.key c.writes = [] → isSet entry.origin = true →
      ∀ call ∈ c.updates, call.key = entry.key → (reading? call.stage).isNone = true)
    (isAtomic : ∀ caller read, entry.origin = .update caller read → Atomic entry.key read c.writes) :
    Inv (c.write (c.state.insert entry.key ⟨entry.value, version⟩) entry) where
  stored key := by
    by_cases same : entry.key = key
    · subst same
      simp only [Sharing.write, SharedState.insert, AList.lookup_insert, latest_snoc_self, next, Option.map_some]
    · simp only [Sharing.write, SharedState.insert, AList.lookup_insert_ne (Ne.symm same), inv.stored, latest,
        versionOf, bySet, writesTo_snoc_other same]
  current := inv.current.mono fun caller call found isCurrent read reads =>
    (isCurrent read reads).snoc fun same unwritten => by
      by_contra isSet
      have idle := alone (same ▸ unwritten) (by simpa using isSet) call (mem_of_getElem? found) same.symm
      rw [reads] at idle
      cases idle
  atomic before write after caller read split isUpdate := by
    -- the new write is the last one, and every other one is where it was
    rcases eq_nil_or_concat after with rfl | ⟨rest, last, rfl⟩
    · obtain ⟨rfl, same⟩ := append_inj' split rfl
      cases same
      exact isAtomic caller read isUpdate
    · refine inv.atomic before write rest caller read ?_ isUpdate
      rw [concat_eq_append, ← cons_append, ← append_assoc] at split
      exact (append_inj' split rfl).1
  answered := inv.answered.mono fun caller call _ wrote value updated =>
    (wrote value updated).imp fun _ member => mem_append_left _ member

/-- An update moves on. -/
theorem Inv.setCall (found : c.updates[caller]? = some call) {next : UpdateCall}
    (isCurrent : ∀ read, reading? next.stage = some read → Current next.key read c.writes)
    (wrote : ∀ value, next.stage = .returned (.updated value) →
      ∃ read, ⟨next.key, value, .update caller read⟩ ∈ c.writes) : Inv (c.setCall caller next) where
  stored := inv.stored
  current := inv.current.set found isCurrent
  atomic := inv.atomic
  answered := inv.answered.set found wrote

/-- An update ends without a write. -/
theorem Inv.finish (found : c.updates[caller]? = some call) {result : UpdateResult}
    (unsuccessful : ∀ value, result ≠ .updated value) : Inv (c.setCall caller (call.finish result)) :=
  inv.setCall found nofun fun value updated => absurd (UpdateStage.returned.inj updated) (unsuccessful value)

theorem Inv.set (separated : Separated c (.set key value)) : Inv (c.set key value) := by
  rw [Sharing.set, SharedState.set]
  by_cases long : key.utf8ByteSize > maxKeyLen
  · simpa only [if_pos long] using inv
  by_cases full : c.state.full key
  · simpa only [if_neg long, if_pos full] using inv
  simp only [if_neg long, if_neg full]
  refine inv.write ⟨key, value, .set⟩ ?_ ?_ nofun
  · -- the version counts the writes after the first
    rw [inv.stored]
    cases last : latest key c.writes with
    | none => exact (versionOf_created ⟨key, value, .set⟩ (latest_eq_none.mp last) rfl).symm
    | some value' =>
      refine (versionOf_snoc ⟨key, value, .set⟩ fun unwritten => ?_).symm
      rw [latest_eq_none.mpr unwritten] at last
      cases last
  · exact fun unwritten _ => separated (inv.not_mem_store unwritten)

theorem Inv.current_read (key : String) : Current key (c.read key) c.writes := by
  have all : c.writes.take (c.read key).seen = c.writes := take_length
  refine ⟨le_rfl, ?_, ?_, ?_⟩
  · rw [all, Sharing.read, inv.readForUpdate]
  · rw [all, Sharing.read, inv.readForUpdate]
  · rw [all]
    exact bySet_of_unwritten

theorem Inv.swap (found : c.updates[caller]? = some call) {newValue : SharedValue}
    (swapping : call.stage = .swapping read newValue)
    (few : (writesTo call.key (c.writes.drop read.seen)).length < 2 ^ 64) : Inv (c.swap caller call read newValue) := by
  rw [Sharing.swap, SharedState.compareAndSwap]
  by_cases long : call.key.utf8ByteSize > maxKeyLen
  · simp only [if_pos long]
    exact inv.finish found nofun
  by_cases stale : c.state.currentVersion call.key ≠ read.version
  · simp only [if_neg long, if_pos stale, UpdateCall.again]
    split
    · exact inv.finish found nofun
    · exact inv.setCall found nofun nofun
  by_cases full : c.state.full call.key
  · simp only [if_neg long, if_neg stale, if_pos full]
    exact inv.finish found nofun
  simp only [if_neg long, if_neg stale, if_neg full]
  have isCurrent := inv.current caller call found read (by rw [swapping, reading?])
  have same : versionOf call.key c.writes = read.version := by
    rw [← inv.currentVersion]
    exact not_not.mp stale
  have isAtomic := isCurrent.atomic same few
  refine (inv.write ⟨call.key, newValue, .update caller read⟩ ?_ ?_ ?_).setCall found nofun ?_
  · rw [versionOf_snoc _ fun _ => rfl, same]
  · exact fun _ => nofun
  · rintro _ _ ⟨⟩
    exact isAtomic
  · rintro _ ⟨⟩
    exact ⟨read, mem_append_right _ mem_cons_self⟩

theorem Inv.resume (found : c.updates[caller]? = some call) (updater : Updater)
    (few : ∀ read ∈ reading? call.stage, (writesTo call.key (c.writes.drop read.seen)).length < 2 ^ 64) :
    Inv (c.resume caller call updater) := by
  rw [Sharing.resume]
  cases stage : call.stage with
  | reading =>
    refine inv.setCall found ?_ nofun
    rintro _ ⟨⟩
    exact inv.current_read call.key
  | calling read =>
    cases updater with
    | raises | unsupported message => exact inv.finish found nofun
    | returns value =>
      refine inv.setCall found ?_ nofun
      rintro _ ⟨⟩
      exact inv.current caller call found read (by rw [stage, reading?])
  | swapping read newValue => exact inv.swap found stage (few read (by rw [stage, reading?]; rfl))
  | returned result => exact inv

theorem step_inv (step : SharedStep) (separated : Separated c step) : Inv (c.step step) := by
  cases step with
  | get key => exact inv
  | set key value => exact inv.set separated
  | update key =>
    exact ⟨inv.stored, inv.current.snoc nofun, inv.atomic, inv.answered.snoc nofun⟩
  | resume caller updater =>
    rw [Sharing.step]
    split
    · rename_i call found
      exact inv.resume found updater (separated call found)
    · exact inv

theorem Inv.serialized : Serialized c where
  stored key := by
    rw [SharedState.get, inv.stored, Option.map_map]
    exact Option.map_id_apply
  atomic := inv.atomic
  answered := inv.answered

end

end Steps

section Results

/-- Where no `set` creates a key behind the back of an update that found none, updates are atomic and no write is
lost. -/
theorem updates_are_atomic (steps : List SharedStep) (separated : Along Sharing.step Separated .new steps) :
    Serialized (Sharing.run steps) :=
  (separated.invariant (fun _ step inv allowed => step_inv inv step allowed) Inv.new).serialized

/-- Two updates of one counter meet, and the second to arrive runs its function again. -/
def contendedUpdates : List SharedStep :=
  List.flatten [[.set "n" (.number 0), .update "n", .update "n"], [.resume 0 .raises, .resume 1 .raises],
    [.resume 0 (.returns (.number 1)), .resume 1 (.returns (.number 1))], [.resume 0 .raises, .resume 1 .raises],
    [.resume 1 .raises, .resume 1 (.returns (.number 2)), .resume 1 .raises]]

theorem contended_updates_are_atomic : Along Sharing.step Separated .new contendedUpdates ∧
    Serialized (Sharing.run contendedUpdates) ∧ (Sharing.run contendedUpdates).state.get "n" = some (.number 2) := by
  have separated : Along Sharing.step Separated .new contendedUpdates := by decide
  exact ⟨separated, updates_are_atomic _ separated, rfl⟩

/-- An update finds no key, a `set` creates it, and the update still succeeds. -/
def overwrittenSet : List SharedStep :=
  [.update "n", .resume 0 .raises, .set "n" (.number 7), .resume 0 (.returns (.number 1)), .resume 0 .raises]

/-- The value that was set is lost: the update that replaced it was computed from no value. -/
theorem set_is_overwritten : ¬Serialized (Sharing.run overwrittenSet) := by
  intro serialized
  have atomic := serialized.atomic [⟨"n", .number 7, .set⟩] ⟨"n", .number 1, .update 0 ⟨.nil, 0, 0⟩⟩ [] 0 ⟨.nil, 0, 0⟩
    rfl rfl
  exact absurd atomic.undisturbed (by simp [writesTo])

end Results

end MineRider.Soundness.SharedUpdates
