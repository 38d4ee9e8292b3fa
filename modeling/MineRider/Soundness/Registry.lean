import MineRider.Machine.Index
import MineRider.Model.Lua.Registry

/-! # The swarm's configuration is consistent

Whatever a script configures, the registry can be used: every bot is under its own id, finds its server and its proxy
profile and is found by its username, every group has bots that exist, and nothing is too long or too many. A call
that fails changes nothing but the counter of ids, also a bulk call that fails after it has added bots: those it
added had fresh ids and fresh usernames, so taking them back restores the maps exactly.
-/

namespace MineRider.Soundness.Registry

open AList List Model.Lua SwarmRegistryBuilder LuaSwarm Machine.Index

section Statement

structure SoundServer (name : String) (server : ServerDef) : Prop where
  named : server.name = name
  nameBound : name.utf8ByteSize ≤ maxNameLen

structure SoundBot (b : SwarmRegistryBuilder) (proxies : Finset String) (id : UInt32) (bot : BotDef) : Prop where
  keyed : bot.id = id
  server : bot.server ∈ b.servers
  proxy : ∀ profile, bot.proxy = some profile → profile ∈ proxies
  usernameBound : bot.username.utf8ByteSize ≤ maxUsernameLen
  labelBound : ∀ label, bot.label = some label → label.utf8ByteSize ≤ maxLabelLen

structure SoundGroup (b : SwarmRegistryBuilder) (name : String) (group : GroupDef) : Prop where
  named : group.name = name
  members : ∀ id ∈ group.botIds, id ∈ b.bots
  nameBound : name.utf8ByteSize ≤ maxNameLen
  sizeBound : group.botIds.length ≤ maxBotsPerGroup

/-- A bot with the id has the username. -/
def Uses (b : SwarmRegistryBuilder) (id : UInt32) (username : String) : Prop :=
  ∃ bot, b.bots.lookup id = some bot ∧ bot.username = username

structure Consistent (proxies : Finset String) (b : SwarmRegistryBuilder) : Prop where
  profiles : b.proxyProfileIds = proxies
  servers : ∀ name server, b.servers.lookup name = some server → SoundServer name server
  bots : ∀ id bot, b.bots.lookup id = some bot → SoundBot b proxies id bot
  usernames : Indexes b.usernameToId (Uses b)
  groups : ∀ name group, b.groups.lookup name = some group → SoundGroup b name group
  botBound : b.bots.keys.length ≤ maxBots
  groupBound : b.groups.keys.length ≤ maxGroups

/-- Servers, bots, usernames and groups, everything but the counter of ids, are the same. -/
def Unchanged (before after : SwarmRegistryBuilder) : Prop := ∃ next, after = { before with nextAutoId := next }

end Statement

section Bots

variable {b next : SwarmRegistryBuilder} {proxies : Finset String} {spec : BotSpec} {id : UInt32}

private theorem toNat_max_bounds (a b : UInt32) : a.toNat ≤ (max a b).toNat ∧ b.toNat ≤ (max a b).toNat := by
  rw [UInt32.max_def]
  split_ifs with ordered
  · exact ⟨UInt32.le_iff_toNat_le.mp ordered, le_refl _⟩
  · exact ⟨le_refl _, (not_le.mp fun below => ordered (UInt32.le_iff_toNat_le.mpr below)).le⟩

private theorem le_checkedSucc (n : UInt32) : n.toNat ≤ ((checkedSucc n).getD n).toNat := by
  cases found : checkedSucc n with
  | none => exact le_refl _
  | some next => exact (lt_of_checkedSucc found).le

theorem unchanged_refl (b : SwarmRegistryBuilder) : Unchanged b b := ⟨b.nextAutoId, rfl⟩

theorem Consistent.of_unchanged (consistent : Consistent proxies b) (same : Unchanged b next) :
    Consistent proxies next := by
  obtain ⟨counter, rfl⟩ := same
  exact ⟨consistent.profiles, consistent.servers, fun id bot found => { consistent.bots id bot found with },
    consistent.usernames, fun name group found => { consistent.groups name group found with },
    consistent.botBound, consistent.groupBound⟩

/-- The search for an id changes the counter only, which it does not lower, and finds one that is free and not below
the counter. -/
theorem allocateId_spec (b : SwarmRegistryBuilder) :
    Unchanged b b.allocateId.2 ∧ b.nextAutoId.toNat ≤ b.allocateId.2.nextAutoId.toNat ∧
      ∀ id, b.allocateId.1 = .ok id → id ∉ b.bots ∧ b.nextAutoId.toNat ≤ id.toNat := by
  fun_induction allocateId b with
  | case1 b free =>
    refine ⟨⟨_, rfl⟩, le_checkedSucc _, fun id found => ?_⟩
    cases found
    exact ⟨free, le_refl _⟩
  | case2 b taken next found ih =>
    obtain ⟨⟨counter, same⟩, raised, free⟩ := ih
    have later : b.nextAutoId.toNat ≤ next.toNat := (lt_of_checkedSucc found).le
    exact ⟨⟨counter, same⟩, later.trans raised, fun id chosen => ⟨(free id chosen).1, later.trans (free id chosen).2⟩⟩
  | case3 b taken none =>
    refine ⟨unchanged_refl b, le_refl _, fun id found => ?_⟩
    simp at found

theorem chooseId_spec (b : SwarmRegistryBuilder) (asked : Option UInt32) :
    Unchanged b (b.chooseId asked).2 ∧ b.nextAutoId.toNat ≤ (b.chooseId asked).2.nextAutoId.toNat ∧
      ∀ id, (b.chooseId asked).1 = .ok id → id ∉ b.bots ∧ (asked = none → b.nextAutoId.toNat ≤ id.toNat) := by
  cases asked with
  | none =>
    obtain ⟨same, raised, free⟩ := allocateId_spec b
    exact ⟨same, raised, fun id found => ⟨(free id found).1, fun _ => (free id found).2⟩⟩
  | some asked =>
    rw [chooseId]
    split_ifs with taken
    · exact ⟨unchanged_refl b, le_refl _, fun id found => absurd found (by simp)⟩
    · refine ⟨unchanged_refl b, le_refl _, fun id found => ?_⟩
      cases found
      exact ⟨taken, fun automatic => absurd automatic (by simp)⟩

/-- What the checks of a bot establish. -/
structure Accepted (b : SwarmRegistryBuilder) (spec : BotSpec) : Prop where
  usernameBound : spec.username.utf8ByteSize ≤ maxUsernameLen
  labelBound : ∀ label, spec.label = some label → label.utf8ByteSize ≤ maxLabelLen
  server : spec.server ∈ b.servers
  proxy : ∀ profile, spec.proxy = some profile → profile ∈ b.proxyProfileIds
  username : spec.username ∉ b.usernameToId
  room : b.bots.keys.length < maxBots

private theorem accepted_of_refuseBot (accepted : b.refuseBot spec = none) : Accepted b spec := by
  unfold refuseBot at accepted
  cases unknown : spec.proxy.filter (· ∉ b.proxyProfileIds) with
  | some profile =>
    rw [unknown] at accepted
    split_ifs at accepted
  | none =>
    rw [unknown] at accepted
    split_ifs at accepted with unnamed long label known duplicate full
    refine ⟨not_lt.mp long, fun text found => ?_, known, fun profile found => ?_, duplicate, not_le.mp full⟩
    · exact not_lt.mp fun tooLong => label ⟨text, found, tooLong⟩
    · rw [Option.filter_eq_none_iff] at unknown
      simpa using unknown profile found

/-- The bot of a spec, with its id. -/
def botOf (spec : BotSpec) (id : UInt32) : BotDef :=
  ⟨id, spec.username, spec.server, spec.proxy, spec.reconnect, spec.label⟩

/-- The registry with one more bot. -/
def withBot (b : SwarmRegistryBuilder) (bot : BotDef) (counter : UInt32) : SwarmRegistryBuilder :=
  { b with
    nextAutoId := counter
    usernameToId := b.usernameToId.insert bot.username bot.id
    bots := b.bots.insert bot.id bot }

/-- A bot that is refused changes nothing; one that is added is fresh in both maps. The counter is then past its id,
unless there is no number past it. -/
theorem addBot_spec (b : SwarmRegistryBuilder) (spec : BotSpec) :
    (∃ error next, b.addBot spec = (.error error, next) ∧ Unchanged b next ∧
        b.nextAutoId.toNat ≤ next.nextAutoId.toNat) ∨
      ∃ id counter, b.addBot spec = (.ok id, withBot b (botOf spec id) counter) ∧ id ∉ b.bots ∧ Accepted b spec ∧
        b.nextAutoId.toNat ≤ counter.toNat ∧ ((checkedSucc id).getD id).toNat ≤ counter.toNat ∧
        (spec.id = none → b.nextAutoId.toNat ≤ id.toNat) := by
  cases refused : b.refuseBot spec with
  | some error => exact .inl ⟨error, b, by simp only [addBot, refused], unchanged_refl b, le_refl _⟩
  | none =>
    obtain ⟨⟨counter, same⟩, raised, free⟩ := chooseId_spec b spec.id
    cases chosen : b.chooseId spec.id with
    | mk result next =>
      rw [chosen] at same raised free
      cases result with
      | error error =>
        exact .inl ⟨error, next, by simp only [addBot, refused, chosen], ⟨counter, same⟩, raised⟩
      | ok id =>
        obtain ⟨fresh, automatic⟩ := free id rfl
        refine .inr ⟨id, max next.nextAutoId ((checkedSucc id).getD id), ?_, fresh, accepted_of_refuseBot refused,
          raised.trans (toNat_max_bounds _ _).1, (toNat_max_bounds _ _).2, automatic⟩
        subst same
        simp only [addBot, refused, chosen]
        rfl

theorem Consistent.addBot (consistent : Consistent proxies b) (accepted : Accepted b spec) (free : id ∉ b.bots)
    (counter : UInt32) : Consistent proxies (withBot b (botOf spec id) counter) where
  profiles := consistent.profiles
  servers := consistent.servers
  bots := by
    refine forall_lookup_insert ?_ fun other bot found => { consistent.bots other bot found with }
    exact ⟨rfl, accepted.server, fun profile asked => consistent.profiles ▸ accepted.proxy profile asked,
      accepted.usernameBound, accepted.labelBound⟩
  usernames := by
    refine consistent.usernames.insert spec.username id fun other username => ?_
    simp only [Uses, withBot, botOf, lookup_insert_eq_ite]
    by_cases chosen : other = id
    · -- the id was free, so no bot used any name under it
      subst chosen
      have nobody : ¬ ∃ bot, b.bots.lookup other = some bot ∧ bot.username = username := by
        rintro ⟨bot, found, _⟩
        exact free (lookup_isSome.mp (found ▸ rfl))
      simp only [if_true, Option.some.injEq, exists_eq_left']
      split_ifs with named
      · exact iff_of_true named.symm trivial
      · exact iff_of_false (Ne.symm named) nobody
    · -- the name was free, so no bot used it under any id
      have unused : username = spec.username → ¬ ∃ bot, b.bots.lookup other = some bot ∧ bot.username = username := by
        rintro rfl used
        have found := (consistent.usernames spec.username other).mpr used
        exact accepted.username (lookup_isSome.mp (found ▸ rfl))
      by_cases named : username = spec.username
      · simpa [chosen, named] using unused named
      · simp [chosen, named]
  groups name group found := by
    have sound := consistent.groups name group found
    exact { sound with members := fun member inside => (mem_insert _).mpr (.inr (sound.members member inside)) }
  botBound := length_keys_insert_le _ consistent.botBound (.inr accepted.room)
  groupBound := consistent.groupBound

end Bots

section Batches

variable {base b : SwarmRegistryBuilder} {proxies : Finset String}

def entriesById (bots : List BotDef) : List (UInt32 × BotDef) := bots.map fun bot => (bot.id, bot)

def entriesByName (bots : List BotDef) : List (String × UInt32) := bots.map fun bot => (bot.username, bot.id)

/-- The registry with bots added to it, one after the other. -/
def withBots (base : SwarmRegistryBuilder) (bots : List BotDef) (counter : UInt32) : SwarmRegistryBuilder :=
  { base with
    nextAutoId := counter
    usernameToId := base.usernameToId.insertAll (entriesByName bots)
    bots := base.bots.insertAll (entriesById bots) }

/-- No two of the bots share an id or a username, with each other or with those of the registry. -/
structure Fresh (base : SwarmRegistryBuilder) (bots : List BotDef) : Prop where
  ids : (bots.map (·.id)).Nodup
  names : (bots.map (·.username)).Nodup
  newIds : ∀ bot ∈ bots, bot.id ∉ base.bots
  newNames : ∀ bot ∈ bots, bot.username ∉ base.usernameToId

@[simp] theorem map_fst_entriesById (bots : List BotDef) : (entriesById bots).map Prod.fst = bots.map (·.id) := by
  simp [entriesById]

@[simp] theorem map_fst_entriesByName (bots : List BotDef) :
    (entriesByName bots).map Prod.fst = bots.map (·.username) := by
  simp [entriesByName]

/-- Taking back the first of the bots leaves the others. -/
theorem removeBot_withBots {first : BotDef} {rest : List BotDef} (fresh : Fresh base (first :: rest))
    (counter : UInt32) :
    ((withBots base (first :: rest) counter).removeBot first.id).2 = withBots base rest counter := by
  have newId : first.id ∉ (entriesById rest).map Prod.fst := by
    rw [map_fst_entriesById]
    exact (nodup_cons.mp fresh.ids).1
  have newName : first.username ∉ (entriesByName rest).map Prod.fst := by
    rw [map_fst_entriesByName]
    exact (nodup_cons.mp fresh.names).1
  have found : (withBots base (first :: rest) counter).bots.lookup first.id = some first :=
    lookup_insertAll_cons newId
  have bots : (withBots base (first :: rest) counter).bots.erase first.id = base.bots.insertAll (entriesById rest) :=
    erase_insertAll_cons (fresh.newIds first mem_cons_self) newId
  have names : (withBots base (first :: rest) counter).usernameToId.erase first.username =
      base.usernameToId.insertAll (entriesByName rest) :=
    erase_insertAll_cons (fresh.newNames first mem_cons_self) newName
  simp only [removeBot, found, bots, names]
  rfl

theorem Fresh.tail {first : BotDef} {rest : List BotDef} (fresh : Fresh base (first :: rest)) : Fresh base rest where
  ids := (nodup_cons.mp fresh.ids).2
  names := (nodup_cons.mp fresh.names).2
  newIds bot inside := fresh.newIds bot (mem_cons_of_mem first inside)
  newNames bot inside := fresh.newNames bot (mem_cons_of_mem first inside)

variable {bots : List BotDef}

private theorem rollBack_withBots (fresh : Fresh base bots) (counter : UInt32) :
    rollBack (bots.map (·.id)) (withBots base bots counter) = { base with nextAutoId := counter } := by
  induction bots with
  | nil => rfl
  | cons first rest ih =>
    rw [rollBack, map_cons, foldl_cons, removeBot_withBots fresh, ← rollBack]
    exact ih fresh.tail

/-- One more bot that the registry took. -/
theorem Fresh.concat (fresh : Fresh base bots) {counter : UInt32} {bot : BotDef}
    (newId : bot.id ∉ (withBots base bots counter).bots)
    (newName : bot.username ∉ (withBots base bots counter).usernameToId) : Fresh base (bots ++ [bot]) := by
  rw [withBots, mem_insertAll, map_fst_entriesById, not_or] at newId
  rw [withBots, mem_insertAll, map_fst_entriesByName, not_or] at newName
  refine ⟨?_, ?_, ?_, ?_⟩
  · rw [map_append]
    exact fresh.ids.append (nodup_singleton _) (disjoint_singleton.mpr newId.2)
  · rw [map_append]
    exact fresh.names.append (nodup_singleton _) (disjoint_singleton.mpr newName.2)
  · rw [forall_mem_append, forall_mem_singleton]
    exact ⟨fresh.newIds, newId.1⟩
  · rw [forall_mem_append, forall_mem_singleton]
    exact ⟨fresh.newNames, newName.1⟩

theorem withBots_concat (base : SwarmRegistryBuilder) (bots : List BotDef) (counter next : UInt32) (bot : BotDef) :
    withBots base (bots ++ [bot]) next = withBot (withBots base bots counter) bot next := by
  simp only [withBots, withBot, entriesById, entriesByName, map_append, map_cons, map_nil, insertAll_concat]

/-- The bots of a group are all added, or none of them. -/
theorem addBots_spec (specs : List BotSpec) (fresh : Fresh base bots) (counter : UInt32)
    (consistent : Consistent proxies (withBots base bots counter)) :
    (∃ error next, addBots specs (bots.map (·.id)) (withBots base bots counter) = (.error error, next) ∧
        Unchanged base next) ∨
      ∃ added counter', addBots specs (bots.map (·.id)) (withBots base bots counter) =
          (.ok (added.map (·.id)), withBots base added counter') ∧
        Fresh base added ∧ Consistent proxies (withBots base added counter') := by
  induction specs generalizing bots counter with
  | nil => exact .inr ⟨bots, counter, rfl, fresh, consistent⟩
  | cons spec rest ih =>
    obtain ⟨error, next, refused, ⟨counter', rfl⟩, -⟩ | ⟨id, counter', added, free, accepted, -⟩ :=
      addBot_spec (withBots base bots counter) spec
    · refine .inl ⟨error, rollBack (bots.map (·.id)) (withBots base bots counter'), ?_, counter',
        rollBack_withBots fresh counter'⟩
      simp only [addBots, refused]
      rfl
    · have more : Fresh base (bots ++ [botOf spec id]) := fresh.concat free accepted.username
      have next := consistent.addBot accepted free counter'
      rw [← withBots_concat] at added next
      simp only [addBots, added]
      have ids : bots.map (·.id) ++ [id] = (bots ++ [botOf spec id]).map (·.id) := by
        rw [map_append]
        rfl
      rw [ids]
      exact ih more counter' next

end Batches

section Calls

variable {b : SwarmRegistryBuilder} {proxies : Finset String}

theorem withBots_nil (b : SwarmRegistryBuilder) : withBots b [] b.nextAutoId = b := rfl

/-- A call keeps the registry consistent, and changes nothing if it fails. -/
def Sound (proxies : Finset String) (b : SwarmRegistryBuilder) (outcome : Reply × SwarmRegistryBuilder) : Prop :=
  Consistent proxies outcome.2 ∧ (outcome.1.isFailure = true → Unchanged b outcome.2)

theorem Consistent.sound_of_unchanged (consistent : Consistent proxies b) {reply : Reply} {next : SwarmRegistryBuilder}
    (same : Unchanged b next) : Sound proxies b (reply, next) :=
  ⟨consistent.of_unchanged same, fun _ => same⟩

theorem addServer_spec (b : SwarmRegistryBuilder) (server : ServerDef) :
    (∃ error, b.addServer server = (.error error, b)) ∨
      b.addServer server = (.ok (), { b with servers := b.servers.insert server.name server }) ∧
        server.name.utf8ByteSize ≤ maxNameLen := by
  unfold SwarmRegistryBuilder.addServer
  split_ifs with unnamed long hostless distant duplicate
  · exact .inl ⟨_, rfl⟩
  · exact .inl ⟨_, rfl⟩
  · exact .inl ⟨_, rfl⟩
  · exact .inl ⟨_, rfl⟩
  · exact .inr ⟨rfl, not_lt.mp long⟩
  · exact .inl ⟨_, rfl⟩

theorem addGroup_spec (b : SwarmRegistryBuilder) (name : String) (ids : List UInt32) :
    (∃ error, b.addGroup name ids = (.error error, b)) ∨
      b.addGroup name ids = (.ok (), { b with groups := b.groups.insert name ⟨name, ids⟩ }) ∧
        name.utf8ByteSize ≤ maxNameLen ∧ ids.length ≤ maxBotsPerGroup ∧ b.groups.keys.length < maxGroups ∧
        ∀ id ∈ ids, id ∈ b.bots := by
  unfold SwarmRegistryBuilder.addGroup
  split_ifs with unnamed long large duplicate full
  · exact .inl ⟨_, rfl⟩
  · exact .inl ⟨_, rfl⟩
  · exact .inl ⟨_, rfl⟩
  · exact .inl ⟨_, rfl⟩
  · exact .inl ⟨_, rfl⟩
  · cases unknown : ids.find? (· ∉ b.bots) with
    | some id => exact .inl ⟨_, rfl⟩
    | none =>
      exact .inr ⟨rfl, not_lt.mp long, not_lt.mp large, not_le.mp full, by simpa using unknown⟩

section

variable (consistent : Consistent proxies b)

include consistent

theorem Consistent.addServer (server : ServerDef) (short : server.name.utf8ByteSize ≤ maxNameLen) :
    Consistent proxies { b with servers := b.servers.insert server.name server } where
  profiles := consistent.profiles
  servers := forall_lookup_insert ⟨rfl, short⟩ consistent.servers
  bots id bot found := by
    have sound := consistent.bots id bot found
    exact { sound with server := (mem_insert _).mpr (.inr sound.server) }
  usernames := consistent.usernames
  groups name group found := { consistent.groups name group found with }
  botBound := consistent.botBound
  groupBound := consistent.groupBound

theorem Consistent.addGroup {name : String} {ids : List UInt32}
    (short : name.utf8ByteSize ≤ maxNameLen) (small : ids.length ≤ maxBotsPerGroup)
    (room : b.groups.keys.length < maxGroups) (known : ∀ id ∈ ids, id ∈ b.bots) :
    Consistent proxies { b with groups := b.groups.insert name ⟨name, ids⟩ } where
  profiles := consistent.profiles
  servers := consistent.servers
  bots id bot found := { consistent.bots id bot found with }
  usernames := consistent.usernames
  groups := forall_lookup_insert ⟨rfl, known, short, small⟩
    fun other group found => { consistent.groups other group found with }
  botBound := consistent.botBound
  groupBound := length_keys_insert_le _ consistent.groupBound (.inr room)

/-- The bulk call: the group with all its bots, or nothing. -/
theorem Consistent.sound_addGroup (table : GroupTable) :
    Sound proxies b (LuaSwarm.addGroup b table) := by
  unfold LuaSwarm.addGroup
  split_ifs with large
  · exact consistent.sound_of_unchanged (unchanged_refl b)
  cases table.reconnect with
  | error message => exact consistent.sound_of_unchanged (unchanged_refl b)
  | ok reconnect =>
    have fresh : Fresh b [] := ⟨nodup_nil, nodup_nil, by simp, by simp⟩
    obtain ⟨error, next, refused, same⟩ | ⟨bots, counter, added, fresh, more⟩ :=
      addBots_spec ((List.range table.count.toNat).map (table.bot reconnect)) fresh b.nextAutoId consistent
    · rw [withBots_nil, map_nil] at refused
      simp only [refused]
      exact consistent.sound_of_unchanged same
    · rw [withBots_nil, map_nil] at added
      simp only [added]
      obtain ⟨error, refused⟩ | ⟨taken, short, small, room, known⟩ :=
        addGroup_spec (withBots b bots counter) table.name (bots.map (·.id))
      · simp only [refused]
        exact consistent.sound_of_unchanged ⟨counter, rollBack_withBots fresh counter⟩
      · simp only [taken]
        exact ⟨more.addGroup short small room known, fun failed => absurd failed (by simp [Reply.isFailure])⟩

theorem Consistent.sound_call (next : LuaSwarm.Call) : Sound proxies b (call b next) := by
  cases next with
  | addServer table =>
    cases table with
    | error message => exact consistent.sound_of_unchanged (unchanged_refl b)
    | ok server =>
      obtain ⟨error, refused⟩ | ⟨added, short⟩ := addServer_spec b server
      · simp only [call, refused]
        exact consistent.sound_of_unchanged (unchanged_refl b)
      · simp only [call, added]
        exact ⟨consistent.addServer server short, fun failed => absurd failed (by simp [Reply.isFailure])⟩
  | addBot table =>
    cases table with
    | error message => exact consistent.sound_of_unchanged (unchanged_refl b)
    | ok spec =>
      obtain ⟨error, next, refused, same, -⟩ | ⟨id, counter, added, free, accepted, -⟩ := addBot_spec b spec
      · simp only [call, refused]
        exact consistent.sound_of_unchanged same
      · simp only [call, added]
        exact ⟨consistent.addBot accepted free counter, fun failed => absurd failed (by simp [Reply.isFailure])⟩
  | addGroup table => exact consistent.sound_addGroup table

end

private theorem consistent_new (proxies : Finset String) : Consistent proxies (new proxies) where
  profiles := rfl
  servers name server found := absurd found (by simp [new])
  bots id bot found := absurd found (by simp [new])
  usernames := indexes_empty (by
    rintro id username ⟨bot, found, _⟩
    exact absurd found (by simp [new]))
  groups name group found := absurd found (by simp [new])
  botBound := Nat.zero_le _
  groupBound := Nat.zero_le _

/-- After any calls the registry is consistent, and the next call, if it reports a failure, leaves servers, bots,
usernames and groups exactly as they are. -/
theorem registry_consistent (proxies : Finset String) (calls : List LuaSwarm.Call) :
    Consistent proxies (configure proxies calls) ∧
      ∀ next, (call (configure proxies calls) next).1.isFailure = true →
        Unchanged (configure proxies calls) (call (configure proxies calls) next).2 := by
  have kept : ∀ b, Consistent proxies b → Consistent proxies (calls.foldl (fun b next => (call b next).2) b) := by
    induction calls with
    | nil => exact fun _ consistent => consistent
    | cons first rest ih => exact fun b consistent => ih _ (consistent.sound_call first).1
  have consistent := kept (new proxies) (consistent_new proxies)
  exact ⟨consistent, fun next => (consistent.sound_call next).2⟩

end Calls

section Ids

/-- A call of the builder itself. -/
inductive Step where
  | addServer (server : ServerDef)
  | addBot (spec : BotSpec)
  | removeBot (id : UInt32)
  | addGroup (name : String) (botIds : List UInt32)

def Step.run (b : SwarmRegistryBuilder) : Step → SwarmRegistryBuilder
  | .addServer server => (b.addServer server).2
  | .addBot spec => (b.addBot spec).2
  | .removeBot id => (b.removeBot id).2
  | .addGroup name botIds => (b.addGroup name botIds).2

def Step.assigns (b : SwarmRegistryBuilder) : Step → List UInt32
  | .addBot spec => (b.addBot spec).1.toOption.toList
  | _ => []

/-- The ids that a builder assigns, asked for or not. -/
def assigned : SwarmRegistryBuilder → List Step → List UInt32
  | _, [] => []
  | b, first :: rest => first.assigns b ++ assigned (first.run b) rest

/-- The counter is past an id, or the id is the last one and in use. -/
def Spent (b : SwarmRegistryBuilder) (id : UInt32) : Prop :=
  id.toNat < b.nextAutoId.toNat ∨ id = 4294967295 ∧ id ∈ b.bots

variable {b : SwarmRegistryBuilder} {id : UInt32}

private theorem spent_withBot {bot : BotDef} {counter : UInt32}
    (past : ((checkedSucc bot.id).getD bot.id).toNat ≤ counter.toNat) : Spent (withBot b bot counter) bot.id := by
  cases found : checkedSucc bot.id with
  | some next =>
    rw [found] at past
    exact .inl ((lt_of_checkedSucc found).trans_le past)
  | none =>
    refine .inr ⟨UInt32.toNat_inj.mp ?_, (mem_insert _).mpr (.inl rfl)⟩
    unfold checkedSucc at found
    split_ifs at found with room
    have bound := bot.id.toNat_lt
    rw [UInt32.size] at room
    change _ = 4294967295
    omega

theorem Spent.run (spent : Spent b id) {step : Step} (kept : .removeBot 4294967295 ≠ step) : Spent (step.run b) id := by
  cases step with
  | addServer server =>
    obtain ⟨error, same⟩ | ⟨same, -⟩ := addServer_spec b server
    all_goals
      rw [Step.run, same]
      exact spent
  | addGroup name botIds =>
    obtain ⟨error, same⟩ | ⟨same, -⟩ := addGroup_spec b name botIds
    all_goals
      rw [Step.run, same]
      exact spent
  | addBot spec =>
    obtain ⟨error, next, same, ⟨counter, rfl⟩, raised⟩ | ⟨new, counter, same, -, -, raised, -⟩ := addBot_spec b spec
    · rw [Step.run, same]
      exact spent.imp_left fun below => below.trans_le raised
    · rw [Step.run, same]
      exact spent.imp (fun below => below.trans_le raised) fun last => ⟨last.1, (mem_insert _).mpr (.inr last.2)⟩
  | removeBot removed =>
    rw [Step.run, SwarmRegistryBuilder.removeBot]
    split
    · refine spent.imp_right fun last => ⟨last.1, mem_erase.mpr ⟨fun same => kept ?_, last.2⟩⟩
      rw [← same, last.1]
    · exact spent

private theorem assigns_spent {step : Step} (given : id ∈ step.assigns b) : Spent (step.run b) id := by
  cases step with
  | addServer | removeBot | addGroup => cases given
  | addBot spec =>
    rw [Step.assigns] at given
    obtain ⟨error, next, same, -⟩ | ⟨new, counter, same, -, -, -, past, -⟩ := addBot_spec b spec
    · rw [same] at given
      cases given
    · rw [same] at given
      cases mem_singleton.mp given
      rw [Step.run, same]
      exact spent_withBot past

private theorem assigned_spent {steps : List Step} (kept : .removeBot 4294967295 ∉ steps)
    (given : Spent b id ∨ id ∈ assigned b steps) : Spent (steps.foldl Step.run b) id := by
  induction steps generalizing b with
  | nil => exact given.resolve_right (not_mem_nil)
  | cons first rest ih =>
    rw [mem_cons, not_or] at kept
    refine ih kept.2 ?_
    rcases given with spent | given
    · exact .inl (spent.run kept.1)
    · exact (mem_append.mp given).imp_left assigns_spent

/-- As long as the bot with the largest id is not taken back, an id that is assigned automatically was not assigned
before. -/
theorem automatic_ids_are_new (proxies : Finset String) (steps : List Step) (kept : .removeBot 4294967295 ∉ steps)
    (spec : BotSpec) (automatic : spec.id = none) (id : UInt32)
    (added : ((steps.foldl Step.run (new proxies)).addBot spec).1 = .ok id) : id ∉ assigned (new proxies) steps := by
  intro given
  have spent := assigned_spent kept (.inr given)
  obtain ⟨error, next, same, -⟩ | ⟨new, counter, same, free, -, -, -, above⟩ :=
    addBot_spec (steps.foldl Step.run (new proxies)) spec
  · rw [same] at added
    cases added
  · rw [same] at added
    cases added
    exact spent.elim (fun below => absurd (above automatic) (not_le.mpr below)) fun last => free last.2

def lobby : ServerDef := ⟨"lobby", "localhost", 25565, 10, 0, 0, true, true⟩

def patient : Model.Core.ReconnectPolicy := ⟨true, .unlimited, fun _ => 0, 0, .retry, .retry, .stop, .stop⟩

def bot (username : String) (id : Option UInt32) : BotSpec := ⟨id, username, "lobby", none, patient, none⟩

theorem second_id_is_new : 1 ∉ assigned (new ∅) [.addServer lobby, .addBot (bot "anna" none)] :=
  automatic_ids_are_new ∅ [.addServer lobby, .addBot (bot "anna" none)] (by simp) (bot "berta" none) rfl 1
    (by decide +kernel)

/-- Give the largest id to a bot, then take the bot back. -/
def takenBack : List Step := [.addServer lobby, .addBot (bot "anna" (some 4294967295)), .removeBot 4294967295]

theorem largest_id_is_assigned_again :
    ((takenBack.foldl Step.run (new ∅)).addBot (bot "berta" none)).1 = .ok 4294967295 ∧
    4294967295 ∈ assigned (new ∅) takenBack := by
  decide +kernel

end Ids

end MineRider.Soundness.Registry
