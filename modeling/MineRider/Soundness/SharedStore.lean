import Mathlib.Data.Finmap
import MineRider.Model.Minecraft.SharedStore
import MineRider.ToMathlib.Concat

/-! # Runs of the shared chunk store

Interning, pruning and the death of payloads happen in any order and number. In every shard the
queue of keys and the map stay two views of one set, both limits hold, and no two references of a
bucket are equal, which is why an equal payload that is still alive is found and handed out again.
Fingerprints are arbitrary numbers here, so every collision is covered.
-/

namespace MineRider.Soundness.SharedStore

open AList List Model.Protocol Model.Minecraft Machine ChunkSnapshot SharedChunkStore
open StoreShard (evict liveOnly)

variable {limits : Limits}

section Shards

/-- A bucket respects its limit, and its references are pairwise unequal. -/
structure BucketInv (limits : Limits) (bucket : Bucket) : Prop where
  length : bucket.length ≤ limits.maxCollisionsPerKey
  distinct : bucket.Pairwise fun a b => a.payload.eq b.payload = false

/-- Every bucket of a map has the property. -/
def AllBuckets (property : Bucket → Prop) (entries : AList fun _ : InternKey => Bucket) : Prop :=
  ∀ key bucket, entries.lookup key = some bucket → property bucket

structure ShardInv (limits : Limits) (shard : StoreShard) : Prop where
  enumerates : Enumerates shard.insertionOrder shard.entries
  keys : shard.entries.keys.length ≤ limits.maxKeysPerShard
  buckets : AllBuckets (BucketInv limits) shard.entries

theorem ShardInv.empty (limits : Limits) : ShardInv limits .empty where
  enumerates := .empty
  keys := Nat.zero_le _
  buckets key bucket found := by simp [StoreShard.empty] at found

section

variable {bucket : Bucket} (inv : BucketInv limits bucket)

include inv

/-- Equal payloads of one bucket are one reference. -/
theorem BucketInv.eq_of_equal {a b : Arc ChunkSnapshot}
    (first : a ∈ bucket) (second : b ∈ bucket) (equal : a.payload.eq b.payload = true) : a = b := by
  have symmetric : Std.Symm fun a b : Arc ChunkSnapshot => a.payload.eq b.payload = false := by
    constructor
    intro a b differ
    rw [Bool.eq_false_iff] at differ ⊢
    exact fun same => differ (ChunkSnapshot.eq_partial.symm same)
  by_contra different
  have unequal := inv.distinct.forall first second different
  rw [equal] at unequal
  contradiction

theorem BucketInv.liveOnly (live : ℕ → Bool) :
    BucketInv limits (liveOnly live bucket) where
  length := (length_filter_le _ _).trans inv.length
  distinct := inv.distinct.filter _

/-- A payload that equals no reference of the bucket may join it while there is room. -/
theorem BucketInv.push {arc : Arc ChunkSnapshot} (room : bucket.length < limits.maxCollisionsPerKey)
    (new : ∀ entry ∈ bucket, entry.payload.eq arc.payload = false) : BucketInv limits (bucket ++ [arc]) where
  length := by
    rw [length_append, length_singleton]
    omega
  distinct := by
    rw [pairwise_append]
    refine ⟨inv.distinct, pairwise_singleton _ _, ?_⟩
    intro entry member last inLast
    rw [mem_singleton.mp inLast]
    exact new entry member

end

section AllBuckets

variable {property : Bucket → Prop} {entries : AList fun _ : InternKey => Bucket}

theorem AllBuckets.insert (all : AllBuckets property entries) (key : InternKey) {bucket : Bucket}
    (new : property bucket) : AllBuckets property (entries.insert key bucket) := by
  intro other found look
  by_cases same : other = key
  · subst same
    rw [lookup_insert] at look
    cases look
    exact new
  · rw [lookup_insert_ne same] at look
    exact all other found look

theorem AllBuckets.erase (all : AllBuckets property entries) (key : InternKey) :
    AllBuckets property (entries.erase key) := by
  intro other found look
  by_cases same : other = key
  · rw [same, lookup_erase] at look
    contradiction
  · rw [lookup_erase_ne same] at look
    exact all other found look

theorem AllBuckets.prune {shard : StoreShard} (all : AllBuckets property shard.entries) {live : ℕ → Bool}
    (keeps : ∀ bucket, property bucket → property (liveOnly live bucket)) :
    AllBuckets property (shard.prune live).entries := by
  intro key bucket found
  simp only [StoreShard.prune, lookup_retainValues, Option.bind_eq_some_iff] at found
  obtain ⟨before, look, kept⟩ := found
  split_ifs at kept
  cases kept
  exact keeps before (all key before look)

end AllBuckets

variable {shard : StoreShard}

/-- A bucket of a known key is replaced. -/
theorem ShardInv.replace (inv : ShardInv limits shard) {key : InternKey} {bucket : Bucket}
    (known : key ∈ shard.entries) (bucketInv : BucketInv limits bucket) :
    ShardInv limits { shard with entries := shard.entries.insert key bucket } where
  enumerates := inv.enumerates.replace known bucket
  keys := by
    have size := length_erase_of_mem (mem_keys.mp known)
    have positive := length_pos_of_mem (mem_keys.mp known)
    have bound := inv.keys
    rw [keys_insert, length_cons]
    omega
  buckets := inv.buckets.insert key bucketInv

variable {entries : AList fun _ : InternKey => Bucket}

/-- The eviction loop only removes keys, the oldest first. -/
theorem evict_keeps (keeps : (AList fun _ : InternKey => Bucket) → List InternKey → Prop)
    (pop : ∀ {entries oldest rest}, keeps entries (oldest :: rest) → keeps (entries.erase oldest) rest) (maxKeys : ℕ)
    (order : List InternKey) (kept : keeps entries order) :
    keeps (evict maxKeys entries order).1.entries (evict maxKeys entries order).1.insertionOrder := by
  induction order generalizing entries with
  | nil => exact kept
  | cons oldest rest ih =>
    rw [evict]
    split
    · exact ih (pop kept)
    · exact kept

/-- It makes room for one key. -/
theorem evict_room {maxKeys : ℕ} (positive : 0 < maxKeys) (order : List InternKey)
    (enumerates : Enumerates order entries) :
    (evict maxKeys entries order).1.entries.keys.length < maxKeys := by
  induction order generalizing entries with
  | nil =>
    rw [evict, ← enumerates.length_eq]
    exact positive
  | cons oldest rest ih =>
    rw [evict]
    split
    · exact ih enumerates.pop
    · rename_i room
      exact not_le.mp room

theorem AllBuckets.evict {property : Bucket → Prop} (maxKeys : ℕ)
    (order : List InternKey) (all : AllBuckets property entries) :
    AllBuckets property (evict maxKeys entries order).1.entries :=
  evict_keeps (fun entries _ => AllBuckets property entries) (fun all => all.erase _) maxKeys order all

/-- A new key enters after the evictions. -/
theorem ShardInv.add (inv : ShardInv limits shard) {key : InternKey} {bucket : Bucket}
    (unknown : shard.entries.lookup key = none) (bucketInv : BucketInv limits bucket) :
    let evicted := (evict limits.maxKeysPerShard shard.entries shard.insertionOrder).1
    ShardInv limits ⟨evicted.entries.insert key bucket, evicted.insertionOrder ++ [key]⟩ := by
  have enumerates := evict_keeps (fun entries order => Enumerates order entries) (fun listed => listed.pop)
    limits.maxKeysPerShard shard.insertionOrder inv.enumerates
  have room := evict_room limits.maxKeysPerShard_pos shard.insertionOrder inv.enumerates
  have new := evict_keeps (fun entries _ => key ∉ entries) (fun absent member => absent (mem_erase.mp member).2)
    limits.maxKeysPerShard shard.insertionOrder (lookup_eq_none.mp unknown)
  refine ⟨enumerates.push new bucket, ?_, (inv.buckets.evict _ _).insert key bucketInv⟩
  rw [keys_insert, length_cons, erase_of_not_mem new]
  exact room

theorem ShardInv.prune (inv : ShardInv limits shard) (live : ℕ → Bool) :
    ShardInv limits (shard.prune live) where
  enumerates := inv.enumerates.retain _
  keys := (keys_retainValues_sublist _ _).length_le.trans inv.keys
  buckets := inv.buckets.prune fun _ bucketInv => bucketInv.liveOnly live

end Shards

section Store

variable {store : SharedChunkStore limits}

/-- A bucket after a payload that equals none of its live references: full, or with one more. -/
def Grown (limits : Limits) (live : ℕ → Bool) (arc : Arc ChunkSnapshot) (bucket after : Bucket) : Prop :=
  after = liveOnly live bucket ∨
    (liveOnly live bucket).length < limits.maxCollisionsPerKey ∧
      after = liveOnly live bucket ++ [arc]

section Intern

variable {live : ℕ → Bool} {fresh : ℕ} {scope : WorldScope} {snapshot : ChunkSnapshot} {fingerprint : UInt64}
  {arc : Arc ChunkSnapshot} {after : SharedChunkStore limits}

/-- Everything `intern_with_fingerprint` can do: find the payload in the key's bucket, miss it there,
or open a bucket for a new key. Only the shard of the key changes. -/
theorem internWithFingerprint_cases
    (result : store.internWithFingerprint live fresh scope snapshot fingerprint = (arc, after)) :
    let key : InternKey := ⟨scope, snapshot.x, snapshot.z, fingerprint⟩
    let i := shardIndex limits key
    let shard := store.shards i
    let evicted := (evict limits.maxKeysPerShard shard.entries shard.insertionOrder).1
    (∃ bucket, shard.entries.lookup key = some bucket ∧ arc ∈ liveOnly live bucket ∧ arc.payload.eq snapshot = true ∧
        after.shards = Function.update store.shards i
          { shard with entries := shard.entries.insert key (liveOnly live bucket) }) ∨
      (∃ bucket grown, shard.entries.lookup key = some bucket ∧ arc = ⟨fresh, snapshot⟩ ∧
        (∀ cached ∈ liveOnly live bucket, cached.payload.eq snapshot = false) ∧
        Grown limits live arc bucket grown ∧
        after.shards = Function.update store.shards i
          { shard with entries := shard.entries.insert key grown }) ∨
      (shard.entries.lookup key = none ∧ arc = ⟨fresh, snapshot⟩ ∧
        after.shards = Function.update store.shards i
          ⟨evicted.entries.insert key [arc], evicted.insertionOrder ++ [key]⟩) := by
  unfold internWithFingerprint at result
  dsimp only at result
  split at result
  · rename_i bucket found
    split at result
    · rename_i hit
      cases result
      have equal : arc.payload.eq snapshot = true := by simpa using find?_some hit
      exact .inl ⟨bucket, found, mem_of_find?_eq_some hit, equal, rfl⟩
    · rename_i missed
      have new : ∀ cached ∈ liveOnly live bucket, cached.payload.eq snapshot = false := by
        intro cached member
        exact Bool.eq_false_iff.mpr (find?_eq_none.mp missed cached member)
      split at result
      · rename_i room
        cases result
        exact .inr (.inl ⟨bucket, _, found, rfl, new, .inr ⟨room, rfl⟩, rfl⟩)
      · cases result
        exact .inr (.inl ⟨bucket, _, found, rfl, new, .inl rfl, rfl⟩)
  · rename_i unknown
    cases result
    exact .inr (.inr ⟨unknown, rfl, rfl⟩)

theorem BucketInv.grown {bucket grown : Bucket} (inv : BucketInv limits bucket)
    (step : Grown limits live arc bucket grown)
    (new : ∀ cached ∈ StoreShard.liveOnly live bucket, cached.payload.eq arc.payload = false) :
    BucketInv limits grown := by
  rcases step with same | ⟨room, more⟩
  · rw [same]
    exact inv.liveOnly live
  · rw [more]
    exact (inv.liveOnly live).push room new

theorem BucketInv.singleton (arc : Arc ChunkSnapshot) : BucketInv limits [arc] where
  length := limits.maxCollisionsPerKey_pos
  distinct := pairwise_singleton _ _

/-- A property of all shards survives the replacement of one. -/
theorem forall_shards (property : StoreShard → Prop) {i : Fin limits.shards} {shard : StoreShard}
    (all : ∀ i, property (store.shards i)) (shards : after.shards = Function.update store.shards i shard)
    (new : property shard) : ∀ i, property (after.shards i) := by
  intro j
  rw [shards]
  by_cases same : j = i
  · rw [same, Function.update_self]
    exact new
  · rw [Function.update_of_ne same]
    exact all j

private theorem internWithFingerprint_inv (inv : ∀ i, ShardInv limits (store.shards i))
    (result : store.internWithFingerprint live fresh scope snapshot fingerprint = (arc, after)) :
    ∀ i, ShardInv limits (after.shards i) := by
  have here := inv (shardIndex limits ⟨scope, snapshot.x, snapshot.z, fingerprint⟩)
  rcases internWithFingerprint_cases result with ⟨bucket, found, -, -, shards⟩ |
    ⟨bucket, grown, found, rfl, new, step, shards⟩ | ⟨unknown, -, shards⟩
  · have known := lookup_isSome.mp (Option.isSome_of_eq_some found)
    apply forall_shards (ShardInv limits) inv shards
    exact here.replace known ((here.buckets _ _ found).liveOnly live)
  · have known := lookup_isSome.mp (Option.isSome_of_eq_some found)
    apply forall_shards (ShardInv limits) inv shards
    exact here.replace known ((here.buckets _ _ found).grown step new)
  · apply forall_shards (ShardInv limits) inv shards
    exact here.add unknown (BucketInv.singleton arc)

/-- What is handed out equals what was asked for. -/
theorem internWithFingerprint_payload
    (result : store.internWithFingerprint live fresh scope snapshot fingerprint = (arc, after)) :
    arc.payload = snapshot ∨ arc.payload.eq snapshot = true := by
  rcases internWithFingerprint_cases result with ⟨bucket, -, -, equal, -⟩ | ⟨bucket, grown, -, fresh, -⟩ | ⟨-, fresh, -⟩
  · exact .inr equal
  · left
    rw [fresh]
  · left
    rw [fresh]

/-- A live reference of the key's bucket that equals the payload is the one handed out: the bucket
holds no second one. -/
theorem internWithFingerprint_shares {bucket : Bucket} {cached : Arc ChunkSnapshot}
    (inv : ∀ i, ShardInv limits (store.shards i))
    (found : (store.shards (shardIndex limits ⟨scope, snapshot.x, snapshot.z, fingerprint⟩)).entries.lookup
      ⟨scope, snapshot.x, snapshot.z, fingerprint⟩ = some bucket)
    (member : cached ∈ bucket) (alive : live cached.id = true) (same : cached.payload.eq snapshot = true)
    (result : store.internWithFingerprint live fresh scope snapshot fingerprint = (arc, after)) :
    arc = cached := by
  have candidate : cached ∈ liveOnly live bucket := mem_filter.mpr ⟨member, alive⟩
  rcases internWithFingerprint_cases result with ⟨_, listed, inBucket, equal, -⟩ | ⟨_, grown, listed, -, new, -⟩ |
    ⟨unknown, -⟩
  · cases found.symm.trans listed
    apply (((inv _).buckets _ _ found).liveOnly live).eq_of_equal inBucket candidate
    exact ChunkSnapshot.eq_partial.trans equal (ChunkSnapshot.eq_partial.symm same)
  · cases found.symm.trans listed
    rw [new cached candidate] at same
    contradiction
  · cases found.symm.trans unknown

def ShardCaches (good : ChunkSnapshot → Prop) (shard : StoreShard) : Prop :=
  AllBuckets (fun bucket => ∀ cached ∈ bucket, good cached.payload) shard.entries

/-- Every payload the store can still hand out has the property. -/
def Caches (good : ChunkSnapshot → Prop) (store : SharedChunkStore limits) : Prop :=
  ∀ i, ShardCaches good (store.shards i)

variable {good : ChunkSnapshot → Prop}

theorem liveOnly_cached (live : ℕ → Bool) {bucket : Bucket} (each : ∀ cached ∈ bucket, good cached.payload) :
    ∀ cached ∈ liveOnly live bucket, good cached.payload := by
  intro cached member
  exact each cached (mem_filter.mp member).1

private theorem grown_cached {bucket grown : Bucket} (each : ∀ cached ∈ bucket, good cached.payload)
    (new : good arc.payload) (step : Grown limits live arc bucket grown) :
    ∀ cached ∈ grown, good cached.payload := by
  rcases step with same | ⟨-, more⟩
  · rw [same]
    exact liveOnly_cached live each
  · rw [more]
    exact forall_mem_concat.mpr ⟨liveOnly_cached live each, new⟩

/-- Interning a payload with the property hands out one with the property. -/
theorem internWithFingerprint_caches (caches : Caches good store) (new : good snapshot)
    (result : store.internWithFingerprint live fresh scope snapshot fingerprint = (arc, after)) :
    good arc.payload ∧ Caches good after := by
  have here := caches (shardIndex limits ⟨scope, snapshot.x, snapshot.z, fingerprint⟩)
  rcases internWithFingerprint_cases result with ⟨bucket, found, member, -, shards⟩ |
    ⟨bucket, grown, found, rfl, -, step, shards⟩ | ⟨-, rfl, shards⟩
  · have each := liveOnly_cached live (here _ _ found)
    exact ⟨each arc member, forall_shards (ShardCaches good) caches shards (AllBuckets.insert here _ each)⟩
  · have each := grown_cached (here _ _ found) new step
    exact ⟨new, forall_shards (ShardCaches good) caches shards (AllBuckets.insert here _ each)⟩
  · refine ⟨new, forall_shards (ShardCaches good) caches shards ((AllBuckets.evict _ _ here).insert _ ?_)⟩
    intro cached member
    rw [mem_singleton.mp member]
    exact new

theorem prune_caches (caches : Caches good store) (live : ℕ → Bool) : Caches good (store.prune live) :=
  fun i => AllBuckets.prune (caches i) fun _ each => liveOnly_cached live each

end Intern

end Store

section Runs

inductive Step where
  | intern (scope : WorldScope) (snapshot : ChunkSnapshot) (fingerprint : UInt64)
  | prune
  | drop (id : ℕ)

def step (heap : Heap limits) : Step → Heap limits
  | .intern scope snapshot fingerprint =>
    let (arc, store) := heap.store.internWithFingerprint heap.live heap.fresh scope snapshot fingerprint
    (heap.receive arc store).2
  | .prune => heap.prune
  | .drop id => heap.drop id

def run (limits : Limits) (steps : List Step) : Heap limits := steps.foldl step (.withLimits limits)

theorem step_inv {heap : Heap limits} (inv : ∀ i, ShardInv limits (heap.store.shards i)) (next : Step) :
    ∀ i, ShardInv limits ((step heap next).store.shards i) := by
  cases next with
  | intern scope snapshot fingerprint => exact internWithFingerprint_inv inv rfl
  | prune => exact fun i => (inv i).prune heap.live
  | drop id => exact inv

theorem run_inv (limits : Limits) (steps : List Step) :
    ∀ i, ShardInv limits ((run limits steps).store.shards i) := by
  apply List.foldlRecOn steps step (motive := fun heap => ∀ i, ShardInv limits (heap.store.shards i))
  · exact fun _ => .empty limits
  · intro heap inv next _
    exact step_inv inv next

/-- After any steps, in every shard the queue enumerates the keys of the map without repetition and
both limits hold; and `intern`, whenever the payload has a fingerprint, returns a payload equal to its
argument, which is the cached reference itself if an equal one is alive under the key. -/
theorem store_run_invariants (limits : Limits) (steps : List Step) :
    let s := run limits steps
    (∀ i, (s.store.shards i).insertionOrder.Nodup ∧
      (∀ key, key ∈ (s.store.shards i).insertionOrder ↔ key ∈ (s.store.shards i).entries) ∧
      (s.store.shards i).entries.keys.length ≤ limits.maxKeysPerShard ∧
      ∀ key bucket, (s.store.shards i).entries.lookup key = some bucket →
        bucket.length ≤ limits.maxCollisionsPerKey) ∧
    ∀ (hash : Bytes → UInt64) (scope : WorldScope) (snapshot : ChunkSnapshot) (fingerprint : UInt64),
      snapshot.fingerprint hash = .ok fingerprint →
      ∃ arc after, s.store.intern hash s.live s.fresh scope snapshot = .ok (arc, after) ∧
        (arc.payload = snapshot ∨ arc.payload.eq snapshot = true) ∧
        ∀ bucket cached,
          let key : InternKey := ⟨scope, snapshot.x, snapshot.z, fingerprint⟩
          (s.store.shards (shardIndex limits key)).entries.lookup key = some bucket →
          cached ∈ bucket → s.live cached.id = true → cached.payload.eq snapshot = true → arc = cached := by
  intro s
  have inv := run_inv limits steps
  constructor
  · intro i
    exact ⟨(inv i).enumerates.nodup, (inv i).enumerates.mem_iff, (inv i).keys,
      fun key bucket found => ((inv i).buckets key bucket found).length⟩
  · intro hash scope snapshot fingerprint hashed
    obtain ⟨arc, after, result⟩ : ∃ arc after,
        s.store.internWithFingerprint s.live s.fresh scope snapshot fingerprint = (arc, after) := ⟨_, _, rfl⟩
    refine ⟨arc, after, ?_, internWithFingerprint_payload result, ?_⟩
    · rw [intern, hashed]
      exact congrArg Except.ok result
    · intro bucket cached key found member alive same
      exact internWithFingerprint_shares inv found member alive same result

/-- A second client interning an equal chunk gets the first client's reference. -/
theorem store_run_invariants_second_client :
    let scope : WorldScope := ⟨⟨"localhost", 25565⟩, ⟨"overworld", 7⟩, ⟨"overworld", -64, 384, 384, 0, false, false⟩⟩
    let snapshot : ChunkSnapshot := ⟨1, -2, [], .compound [], [], ⟨[], [], [], [], [], []⟩⟩
    let s := run .default [.intern scope snapshot 9]
    ∃ after, s.store.intern (fun _ => 9) s.live s.fresh scope snapshot = .ok (⟨0, snapshot⟩, after) := by
  intro scope snapshot s
  obtain ⟨arc, after, result, -, shares⟩ :=
    (store_run_invariants .default [.intern scope snapshot 9]).2 (fun _ => 9) scope snapshot 9 rfl
  have same : arc = ⟨0, snapshot⟩ := by
    apply shares [⟨0, snapshot⟩] ⟨0, snapshot⟩ _ mem_cons_self rfl rfl
    simp [run, step, Heap.withLimits, Heap.receive, withLimits, setShard,
      internWithFingerprint, evict, StoreShard.empty, AList.lookup, AList.singleton]
  rw [same] at result
  exact ⟨after, result⟩

end Runs

end MineRider.Soundness.SharedStore
