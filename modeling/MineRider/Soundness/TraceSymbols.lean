import Mathlib.Data.Set.Function
import MineRider.Model.Trace.Normalize

/-! # Normalized traces

Symbols are numbered by first occurrence, so that they depend on the values only through which of them
are equal. A renaming that is injective on the texts that occur therefore does not change the outcome.
The second normalization of a trace meets the symbols of the first in the order of their numbers and
maps each to itself.
-/

namespace MineRider.Soundness.TraceSymbols

open AList Model.Minecraft Model.Trace SymbolTable

section Tables

variable {render : Json → String}

/-- The symbol a text has. -/
def find (table : SymbolTable) (kind : SymbolKind) (key : String) : Option String :=
  ((table.maps.lookup kind).getD ∅).lookup key

/-- How many symbols of a kind there are. -/
def count (table : SymbolTable) (kind : SymbolKind) : ℕ := (table.counters.lookup kind).getD 0

private theorem find_insert_map (table : SymbolTable) (counters : AList fun _ : SymbolKind => ℕ)
    (kind other : SymbolKind) (map : AList fun _ : String => String) (key : String) :
    find ⟨table.maps.insert kind map, counters⟩ other key =
      if other = kind then map.lookup key else find table other key := by
  unfold find
  split_ifs with same
  · subst same
    rw [lookup_insert]
    rfl
  · rw [lookup_insert_ne same]

variable {kind : SymbolKind}

/-- A text that has a symbol keeps it, and nothing changes. -/
theorem symbol_known {table : SymbolTable} {raw : Json} {sym : String}
    (known : find table kind (keyText render raw) = some sym) :
    (table.symbol render kind raw).1 = sym ∧
      (∀ other, find (table.symbol render kind raw).2 other = find table other) ∧
        count (table.symbol render kind raw).2 = count table := by
  have looked : ((table.maps.lookup kind).getD ∅).lookup (keyText render raw) = some sym := known
  simp only [Model.Trace.SymbolTable.symbol, looked]
  refine ⟨trivial, ?_, rfl⟩
  intro other
  funext key
  rw [find_insert_map]
  split_ifs with same
  · rw [same]
    rfl
  · rfl

/-- A text without a symbol gets the next one of its kind. -/
theorem symbol_new {table : SymbolTable} {raw : Json} (unknown : find table kind (keyText render raw) = none) :
    (table.symbol render kind raw).1 = symbolText kind (count table kind + 1) ∧
      (∀ other key, find (table.symbol render kind raw).2 other key =
        if other = kind ∧ key = keyText render raw then some (symbolText kind (count table kind + 1))
        else find table other key) ∧
      ∀ other, count (table.symbol render kind raw).2 other =
        if other = kind then count table kind + 1 else count table other := by
  have looked : ((table.maps.lookup kind).getD ∅).lookup (keyText render raw) = none := unknown
  simp only [Model.Trace.SymbolTable.symbol, looked]
  refine ⟨rfl, ?_, ?_⟩
  · intro other key
    rw [find_insert_map]
    by_cases same : other = kind
    · subst same
      by_cases mine : key = keyText render raw
      · subst mine
        rw [if_pos rfl, if_pos ⟨rfl, rfl⟩, lookup_insert]
        rfl
      · rw [if_pos rfl, if_neg fun both => mine both.2, lookup_insert_ne mine]
        rfl
    · rw [if_neg same, if_neg fun both => same both.1]
  · intro other
    unfold count
    split_ifs with same
    · subst same
      rw [lookup_insert]
      rfl
    · rw [lookup_insert_ne same]

private theorem symbolText_injective {i j : ℕ} (same : symbolText kind i = symbolText kind j) : i = j := by
  have texts := congrArg String.toList same
  simp only [symbolText, String.toList_append] at texts
  have digits : Nat.toDigits 10 i = Nat.toDigits 10 j := by
    have printed := List.append_cancel_left texts
    change (String.ofList (Nat.toDigits 10 i)).toList = (String.ofList (Nat.toDigits 10 j)).toList at printed
    rwa [String.toList_ofList, String.toList_ofList] at printed
  have values := congrArg (Nat.ofDigitChars 10 · 0) digits
  simpa only [Nat.ofDigitChars_ten_toDigits] using values

end Tables

section Renaming

variable (render : Json → String) (rename : SymbolKind → String → String)

mutual

/-- Two values that differ only in how session-specific values are named. -/
def SameValue : Json → Json → Prop
  | .object entries, other => ∃ entries', other = .object entries' ∧ SameEntries entries entries'
  | .array items, other => ∃ items', other = .array items' ∧ SameItems items items'
  | scalar, other => other = scalar

def SameEntries : List (String × Json) → List (String × Json) → Prop
  | [], other => other = []
  | (key, child) :: rest, other => ∃ child' rest', other = (key, child') :: rest' ∧
      (match symbolKind key with
        | some kind => keyText render child' = rename kind (keyText render child)
        | none => SameValue child child') ∧
      SameEntries rest rest'

def SameItems : List Json → List Json → Prop
  | [], other => other = []
  | item :: rest, other => ∃ item' rest', other = item' :: rest' ∧ SameValue item item' ∧ SameItems rest rest'

end

def SameFields : Option Json → Option Json → Prop
  | none, other => other = none
  | some fields, other => ∃ fields', other = some fields' ∧ SameValue render rename fields fields'

/-- Two events that differ only in the absolute time, the raw payload and the names. -/
structure SameEvent (event other : TraceEvent) : Prop where
  session : other.session = rename .session event.session
  fields : SameFields render rename event.fields other.fields
  rest : { event with tsMonoMs := 0, payloadHex := "", session := "", fields := none } =
    { other with tsMonoMs := 0, payloadHex := "", session := "", fields := none }

mutual

/-- The texts of the session-specific values of a value, with their kinds. -/
def valueTexts : Json → List (SymbolKind × String)
  | .object entries => entryTexts entries
  | .array items => itemTexts items
  | _ => []

def entryTexts : List (String × Json) → List (SymbolKind × String)
  | [] => []
  | (key, child) :: rest =>
    (match symbolKind key with
      | some kind => [(kind, keyText render child)]
      | none => valueTexts child) ++ entryTexts rest

def itemTexts : List Json → List (SymbolKind × String)
  | [] => []
  | item :: rest => valueTexts item ++ itemTexts rest

end

def fieldTexts : Option Json → List (SymbolKind × String)
  | none => []
  | some fields => valueTexts render fields

def eventTexts (event : TraceEvent) : List (SymbolKind × String) :=
  (.session, event.session) :: fieldTexts render event.fields

/-- The texts of a trace. -/
def traceTexts (events : List TraceEvent) : List (SymbolKind × String) := events.flatMap (eventTexts render)

variable {render rename}

/-- The tables of two traversals, apart from the names in `texts`. -/
structure Agrees (rename : SymbolKind → String → String) (texts : List (SymbolKind × String))
    (table other : SymbolTable) : Prop where
  found : ∀ kind key, (kind, key) ∈ texts →
    find other kind (rename kind key) = find table kind key
  counts : ∀ kind, count other kind = count table kind

variable {texts : List (SymbolKind × String)} {table other : SymbolTable}

/-- No two texts of a kind become one. -/
def Injective (rename : SymbolKind → String → String) (texts : List (SymbolKind × String)) : Prop :=
  ∀ kind, Set.InjOn (rename kind) {key | (kind, key) ∈ texts}

/-- Two traversals with one result, in tables that are related after them. -/
abbrev Alike {α : Type} (related : SymbolTable → SymbolTable → Prop) (first second : α × SymbolTable) : Prop :=
  second.1 = first.1 ∧ related first.2 second.2

private theorem symbol_agrees (injective : Injective rename texts) (agrees : Agrees rename texts table other)
    {kind : SymbolKind} {raw raw' : Json}
    (occurs : (kind, keyText render raw) ∈ texts)
    (renamed : keyText render raw' = rename kind (keyText render raw)) :
    Alike (Agrees rename texts) (table.symbol render kind raw) (other.symbol render kind raw') := by
  have same := agrees.found kind _ occurs
  rw [← renamed] at same
  cases known : find table kind (keyText render raw) with
  | some sym =>
    obtain ⟨sym₁, finds₁, counts₁⟩ := symbol_known known
    obtain ⟨sym₂, finds₂, counts₂⟩ := symbol_known (same.trans known)
    refine ⟨sym₂.trans sym₁.symm, ⟨?_, ?_⟩⟩
    · intro kind' key' member
      rw [finds₁, finds₂]
      exact agrees.found kind' key' member
    · intro kind'
      rw [counts₁, counts₂]
      exact agrees.counts kind'
  | none =>
    obtain ⟨sym₁, finds₁, counts₁⟩ := symbol_new known
    obtain ⟨sym₂, finds₂, counts₂⟩ := symbol_new (same.trans known)
    rw [agrees.counts] at sym₂ finds₂
    refine ⟨sym₂.trans sym₁.symm, ⟨?_, ?_⟩⟩
    · intro kind' key' member
      rw [finds₁, finds₂, agrees.found kind' key' member, renamed]
      -- The new texts are the same one before and after the renaming.
      have matched : (kind' = kind ∧ rename kind' key' = rename kind (keyText render raw)) ↔
          kind' = kind ∧ key' = keyText render raw := by
        constructor
        · rintro ⟨rfl, equal⟩
          exact ⟨rfl, injective kind' member occurs equal⟩
        · rintro ⟨rfl, rfl⟩
          exact ⟨rfl, rfl⟩
      simp only [matched]
    · intro kind'
      rw [counts₁, counts₂, agrees.counts, agrees.counts]

mutual

private theorem value_agrees (injective : Injective rename texts) (value value' : Json) (table other : SymbolTable)
    (agrees : Agrees rename texts table other) (same : SameValue render rename value value')
    (inside : valueTexts render value ⊆ texts) :
    Alike (Agrees rename texts) (normalizeValue render value table) (normalizeValue render value' other) := by
  cases value with
  | object entries =>
    obtain ⟨entries', rfl, sameEntries⟩ := same
    obtain ⟨equal, agrees'⟩ := entries_agree injective entries entries' table other agrees sameEntries inside
    simp only [normalizeValue]
    exact ⟨congrArg Json.object equal, agrees'⟩
  | array items =>
    obtain ⟨items', rfl, sameItems⟩ := same
    obtain ⟨equal, agrees'⟩ := items_agree injective items items' table other agrees sameItems inside
    simp only [normalizeValue]
    exact ⟨congrArg Json.array equal, agrees'⟩
  | null | bool b | number n | string text =>
    cases same
    exact ⟨rfl, agrees⟩

theorem entries_agree (injective : Injective rename texts) (entries entries' : List (String × Json))
    (table other : SymbolTable) (agrees : Agrees rename texts table other)
    (same : SameEntries render rename entries entries')
    (inside : entryTexts render entries ⊆ texts) :
    Alike (Agrees rename texts) (normalizeEntries render entries table) (normalizeEntries render entries' other) := by
  cases entries with
  | nil =>
    cases same
    exact ⟨rfl, agrees⟩
  | cons entry rest =>
    obtain ⟨key, child⟩ := entry
    obtain ⟨child', rest', rfl, sameChild, sameRest⟩ := same
    simp only [entryTexts, List.append_subset] at inside
    simp only [normalizeEntries]
    cases classified : symbolKind key with
    | some kind =>
      simp only [classified, List.cons_subset, List.nil_subset, and_true] at inside sameChild ⊢
      obtain ⟨equal, agrees'⟩ := symbol_agrees injective agrees inside.1 sameChild
      obtain ⟨equalRest, agrees''⟩ := entries_agree injective rest rest' _ _ agrees' sameRest inside.2
      exact ⟨by rw [equal, equalRest], agrees''⟩
    | none =>
      simp only [classified] at inside sameChild ⊢
      obtain ⟨equal, agrees'⟩ := value_agrees injective child child' table other agrees sameChild inside.1
      obtain ⟨equalRest, agrees''⟩ := entries_agree injective rest rest' _ _ agrees' sameRest inside.2
      exact ⟨by rw [equal, equalRest], agrees''⟩

theorem items_agree (injective : Injective rename texts) (items items' : List Json) (table other : SymbolTable)
    (agrees : Agrees rename texts table other) (same : SameItems render rename items items')
    (inside : itemTexts render items ⊆ texts) :
    Alike (Agrees rename texts) (normalizeItems render items table) (normalizeItems render items' other) := by
  cases items with
  | nil =>
    cases same
    exact ⟨rfl, agrees⟩
  | cons item rest =>
    obtain ⟨item', rest', rfl, sameItem, sameRest⟩ := same
    simp only [itemTexts, List.append_subset] at inside
    simp only [normalizeItems]
    obtain ⟨equal, agrees'⟩ := value_agrees injective item item' table other agrees sameItem inside.1
    obtain ⟨equalRest, agrees''⟩ := items_agree injective rest rest' _ _ agrees' sameRest inside.2
    exact ⟨by rw [equal, equalRest], agrees''⟩

end

section

variable (injective : Injective rename texts) (agrees : Agrees rename texts table other)

include injective agrees

private theorem fields_agree {fields fields' : Option Json}
    (same : SameFields render rename fields fields') (inside : fieldTexts render fields ⊆ texts) :
    Alike (Agrees rename texts) (normalizeFields render fields table) (normalizeFields render fields' other) := by
  cases fields with
  | none =>
    cases same
    exact ⟨rfl, agrees⟩
  | some value =>
    obtain ⟨value', rfl, sameValue⟩ := same
    obtain ⟨equal, agrees'⟩ := value_agrees injective value value' table other agrees sameValue inside
    exact ⟨congrArg some equal, agrees'⟩

private theorem event_agrees {event event' : TraceEvent}
    (same : SameEvent render rename event event') (inside : eventTexts render event ⊆ texts) :
    Alike (Agrees rename texts) (normalizeEvent render event table) (normalizeEvent render event' other) := by
  obtain ⟨session, fields⟩ := List.cons_subset.mp inside
  have named : keyText render (.string event'.session) = rename .session (keyText render (.string event.session)) :=
    same.session
  obtain ⟨equal, agrees'⟩ := symbol_agrees injective agrees session named
  obtain ⟨equalFields, agrees''⟩ := fields_agree injective agrees' same.fields fields
  refine ⟨?_, agrees''⟩
  have rest := same.rest
  obtain ⟨⟩ := event
  cases rest
  simp only [normalizeEvent, equal, equalFields]

private theorem events_agree {events events' : List TraceEvent}
    (same : List.Forall₂ (SameEvent render rename) events events') (inside : traceTexts render events ⊆ texts) :
    normalizeEvents render events' other = normalizeEvents render events table := by
  induction same generalizing table other with
  | nil => rfl
  | @cons event event' rest rest' head _ ih =>
    rw [traceTexts, List.flatMap_cons, List.append_subset] at inside
    obtain ⟨equal, agrees'⟩ := event_agrees injective agrees head inside.1
    simp only [normalizeEvents]
    rw [equal, ih agrees' inside.2]

end

end Renaming

section Again

variable (render : Json → String)

/-- The tables of the first and of the second normalization at the same place: the second one holds the
symbols the first one has given out, each under itself. -/
structure Mirrors (table again : SymbolTable) : Prop where
  counts : ∀ kind, count again kind = count table kind
  given : ∀ kind key sym, find table kind key = some sym →
    ∃ i, sym = symbolText kind (i + 1) ∧ i < count table kind
  found : ∀ kind i, find again kind (symbolText kind (i + 1)) =
    if i < count table kind then some (symbolText kind (i + 1)) else none

private theorem mirrors_new : Mirrors new new where
  counts _ := rfl
  given _ _ _ found := by cases found
  found _ _ := rfl

variable {table again : SymbolTable}

private theorem symbol_mirrors (mirrors : Mirrors table again) (kind : SymbolKind) (raw : Json) :
    Alike Mirrors (table.symbol render kind raw)
      (again.symbol render kind (.string (table.symbol render kind raw).1)) := by
  cases known : find table kind (keyText render raw) with
  | some sym =>
    obtain ⟨same, finds, counts⟩ := symbol_known known
    obtain ⟨i, rfl, smaller⟩ := mirrors.given kind _ sym known
    have present : find again kind (keyText render (.string (table.symbol render kind raw).1)) =
        some (symbolText kind (i + 1)) := by
      rw [keyText, same, mirrors.found, if_pos smaller]
    obtain ⟨same', finds', counts'⟩ := symbol_known present
    refine ⟨same'.trans same.symm, ⟨?_, ?_, ?_⟩⟩
    · intro other
      rw [counts, counts']
      exact mirrors.counts other
    · intro other key sym
      rw [finds, counts]
      exact mirrors.given other key sym
    · intro other j
      rw [finds', counts]
      exact mirrors.found other j
  | none =>
    obtain ⟨same, finds, counts⟩ := symbol_new known
    have absent : find again kind (keyText render (.string (table.symbol render kind raw).1)) = none := by
      rw [keyText, same, mirrors.found, if_neg (lt_irrefl _)]
    obtain ⟨same', finds', counts'⟩ := symbol_new absent
    rw [mirrors.counts] at same' finds' counts'
    refine ⟨same'.trans same.symm, ⟨?_, ?_, ?_⟩⟩
    · intro other
      rw [counts, counts', mirrors.counts]
    · intro other key sym
      rw [finds, counts]
      split_ifs with mine isKind isKind
      · intro found
        cases found
        rw [mine.1]
        exact ⟨_, rfl, Nat.lt_succ_self _⟩
      · exact absurd mine.1 isKind
      · intro found
        subst isKind
        obtain ⟨i, equal, smaller⟩ := mirrors.given other key sym found
        exact ⟨i, equal, Nat.lt_succ_of_lt smaller⟩
      · exact mirrors.given other key sym
    · intro other j
      rw [finds', counts, keyText, same]
      by_cases isKind : other = kind
      · subst isKind
        rw [if_pos rfl, mirrors.found]
        by_cases newest : j = count table other
        · subst newest
          rw [if_pos ⟨rfl, rfl⟩, if_pos (Nat.lt_succ_self _)]
        · rw [if_neg fun both => newest (Nat.succ_injective (symbolText_injective both.2))]
          split_ifs <;> first | rfl | omega
      · rw [if_neg fun both => isKind both.1, if_neg isKind]
        exact mirrors.found other j

mutual

private theorem value_mirrors (value : Json) (table again : SymbolTable) (mirrors : Mirrors table again) :
    Alike Mirrors (normalizeValue render value table)
      (normalizeValue render (normalizeValue render value table).1 again) := by
  cases value with
  | object entries =>
    obtain ⟨equal, mirrors'⟩ := entries_mirror entries table again mirrors
    simp only [normalizeValue]
    exact ⟨congrArg Json.object equal, mirrors'⟩
  | array items =>
    obtain ⟨equal, mirrors'⟩ := items_mirror items table again mirrors
    simp only [normalizeValue]
    exact ⟨congrArg Json.array equal, mirrors'⟩
  | null | bool b | number n | string text => exact ⟨rfl, mirrors⟩

theorem entries_mirror (entries : List (String × Json)) (table again : SymbolTable) (mirrors : Mirrors table again) :
    Alike Mirrors (normalizeEntries render entries table)
      (normalizeEntries render (normalizeEntries render entries table).1 again) := by
  cases entries with
  | nil => exact ⟨rfl, mirrors⟩
  | cons entry rest =>
    obtain ⟨key, child⟩ := entry
    simp only [normalizeEntries]
    cases classified : symbolKind key with
    | some kind =>
      obtain ⟨equal, mirrors'⟩ := symbol_mirrors render mirrors kind child
      obtain ⟨equalRest, mirrors''⟩ := entries_mirror rest _ _ mirrors'
      dsimp only
      exact ⟨by rw [equal, equalRest], mirrors''⟩
    | none =>
      obtain ⟨equal, mirrors'⟩ := value_mirrors child table again mirrors
      obtain ⟨equalRest, mirrors''⟩ := entries_mirror rest _ _ mirrors'
      dsimp only
      exact ⟨by rw [equal, equalRest], mirrors''⟩

theorem items_mirror (items : List Json) (table again : SymbolTable) (mirrors : Mirrors table again) :
    Alike Mirrors (normalizeItems render items table)
      (normalizeItems render (normalizeItems render items table).1 again) := by
  cases items with
  | nil => exact ⟨rfl, mirrors⟩
  | cons item rest =>
    obtain ⟨equal, mirrors'⟩ := value_mirrors item table again mirrors
    obtain ⟨equalRest, mirrors''⟩ := items_mirror rest _ _ mirrors'
    simp only [normalizeItems]
    exact ⟨by rw [equal, equalRest], mirrors''⟩

end

private theorem fields_mirror (fields : Option Json) (mirrors : Mirrors table again) :
    Alike Mirrors (normalizeFields render fields table)
      (normalizeFields render (normalizeFields render fields table).1 again) := by
  cases fields with
  | none => exact ⟨rfl, mirrors⟩
  | some value =>
    obtain ⟨equal, mirrors'⟩ := value_mirrors render value table again mirrors
    exact ⟨congrArg some equal, mirrors'⟩

private theorem event_mirrors (event : TraceEvent) (mirrors : Mirrors table again) :
    Alike Mirrors (normalizeEvent render event table)
      (normalizeEvent render (normalizeEvent render event table).1 again) := by
  obtain ⟨equal, mirrors'⟩ := symbol_mirrors render mirrors .session (.string event.session)
  obtain ⟨equalFields, mirrors''⟩ := fields_mirror render event.fields mirrors'
  refine ⟨?_, mirrors''⟩
  simp only [normalizeEvent, equal, equalFields]

private theorem events_mirror (events : List TraceEvent) (mirrors : Mirrors table again) :
    normalizeEvents render (normalizeEvents render events table) again = normalizeEvents render events table := by
  induction events generalizing table again with
  | nil => rfl
  | cons event rest ih =>
    obtain ⟨equal, mirrors'⟩ := event_mirrors render event mirrors
    simp only [normalizeEvents]
    rw [equal, ih mirrors']

end Again

/-- Traces that differ only in absolute times, raw payloads and an injective renaming of their
session-specific values have the same normal form, and a normal form is its own. -/
theorem normalize_forgets_names (render : Json → String) :
    (∀ (rename : SymbolKind → String → String) (events events' : List TraceEvent),
      (∀ kind, Set.InjOn (rename kind) {key | (kind, key) ∈ traceTexts render events}) →
        List.Forall₂ (SameEvent render rename) events events' → normalize render events' = normalize render events) ∧
      ∀ events, normalize render (normalize render events) = normalize render events := by
  constructor
  · intro rename events events' injective same
    exact events_agree injective ⟨fun _ _ _ => rfl, fun _ => rfl⟩ same (List.Subset.refl _)
  · intro events
    exact events_mirror render events mirrors_new

/-- A packet with the uuid of a player. -/
def playerPacket (session uuid : String) (time : UInt64) : TraceEvent :=
  ⟨time, 0, 0, .clientbound, "play", 1, "player_info", some (.object [("uuid", .string uuid)]), "", false, false, 16,
    session, "join", 0⟩

/-- A run with other players at other times, two of whose packets are about the same player. -/
theorem renamed_run_is_normalized_alike :
    normalize (fun _ => "") [playerPacket "other run" "other alex" 7, playerPacket "other run" "other kai" 8,
      playerPacket "other run" "other alex" 9] =
    normalize (fun _ => "") [playerPacket "run" "alex" 1, playerPacket "run" "kai" 2, playerPacket "run" "alex" 3] := by
  have same (uuid : String) (time later : UInt64) : SameEvent (fun _ => "") (fun _ key => "other " ++ key)
      (playerPacket "run" uuid time) (playerPacket "other run" ("other " ++ uuid) later) :=
    ⟨rfl, ⟨_, rfl, _, rfl, _, _, rfl, rfl, rfl⟩, rfl⟩
  refine (normalize_forgets_names fun _ => "").1 (fun _ key => "other " ++ key) _ _ (fun kind => ?_)
    (.cons (same "alex" 1 7) (.cons (same "kai" 2 8) (.cons (same "alex" 3 9) .nil)))
  exact fun _ _ _ _ renamed => (String.append_right_inj _).mp renamed

end MineRider.Soundness.TraceSymbols
