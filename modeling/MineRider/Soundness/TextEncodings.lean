import MineRider.Model.Minecraft.Text

/-! # Two encodings of one component

The parsers of network NBT and of JSON are written apart. On a JSON value without `null` they agree: what
the one makes of the value, the other makes of its NBT form, with the same cuts and the same budget left.
Only the payload that a hover event keeps stays in the encoding it came from. A `null` is the exception,
because it converts to an empty compound, which is a component of an unknown kind.
-/

namespace MineRider.Soundness.TextEncodings

open List Model.Protocol Model.Minecraft JsonText

section Statement

mutual

def containsNull : Json → Bool
  | .null => true
  | .bool _ | .number _ | .string _ => false
  | .array items => anyContainsNull items
  | .object entries => entryContainsNull entries

def anyContainsNull : List Json → Bool
  | [] => false
  | item :: rest => containsNull item || anyContainsNull rest

def entryContainsNull : List (String × Json) → Bool
  | [] => false
  | (_, value) :: rest => containsNull value || entryContainsNull rest

end

def rawOverNbt : RawEvent → RawEvent
  | .nbt raw => .nbt raw
  | .json raw => .nbt (jsonToNbtLossy raw)

mutual

/-- A component with the payloads of its hover events in their NBT form. -/
def overNbt : TextComponent → TextComponent
  | ⟨content, style, extra⟩ =>
    ⟨contentOverNbt content, { style with hoverEvent := hoverOverNbt style.hoverEvent }, allOverNbt extra⟩

def contentOverNbt : Content TextComponent → Content TextComponent
  | .literal text => .literal text
  | .translate key args => .translate key (allOverNbt args)
  | .unknown raw => .unknown raw

def hoverOverNbt : Option (HoverEvent TextComponent) → Option (HoverEvent TextComponent)
  | none => none
  | some ⟨action, text, raw⟩ => some ⟨action, textOverNbt text, rawOverNbt raw⟩

def textOverNbt : Option TextComponent → Option TextComponent
  | none => none
  | some text => some (overNbt text)

def allOverNbt : List TextComponent → List TextComponent
  | [] => []
  | component :: rest => overNbt component :: allOverNbt rest

end

end Statement

section Lookups

private theorem find_lossy (entries : List (String × Json)) (name : String) :
    ((entriesToNbtLossy entries).find? (·.1 == name)).map (·.2) =
      ((entries.find? (·.1 == name)).map (·.2)).map jsonToNbtLossy := by
  induction entries with
  | nil => rfl
  | cons entry rest ih =>
    obtain ⟨key, value⟩ := entry
    rw [entriesToNbtLossy, find?_cons, find?_cons]
    cases same : key == name with
    | true => simp
    | false => simpa [same] using ih

/-- A number becomes a `long` or a `double`. -/
@[elab_as_elim] theorem number_lossy {motive : Nbt → Prop} (n : Number) (long : ∀ v, motive (.long v))
    (double : ∀ bits, motive (.double bits)) : motive (jsonToNbtLossy (.number n)) := by
  rw [jsonToNbtLossy]
  cases n.asI64 with
  | some v => exact long v
  | none =>
    cases n.asF64 with
    | some bits => exact double bits
    | none => exact long 0

section

variable (value : Json)

include value

theorem get_lossy (name : String) :
    (jsonToNbtLossy value).get name = (value.get name).map jsonToNbtLossy := by
  cases value with
  | object entries => exact find_lossy entries name
  | number n => exact number_lossy n (fun _ => rfl) fun _ => rfl
  | _ => simp [jsonToNbtLossy, Nbt.get, Json.get]

theorem stringField_lossy (key : String) :
    NbtText.stringField (jsonToNbtLossy value) key = stringField value key := by
  rw [NbtText.stringField, get_lossy, stringField]
  cases value.get key with
  | none => rfl
  | some found =>
    cases found with
    | number n =>
      rw [Option.map_some]
      exact number_lossy n (fun _ => rfl) fun _ => rfl
    | _ => simp [jsonToNbtLossy, Json.asStr]

private theorem boolField_lossy (key : String) :
    NbtText.boolField (jsonToNbtLossy value) key = boolField value key := by
  rw [NbtText.boolField, get_lossy, boolField]
  cases value.get key with
  | none => rfl
  | some found =>
    cases found with
    | number n =>
      rw [Option.map_some]
      exact number_lossy n (fun _ => rfl) fun _ => rfl
    | bool b => cases b <;> simp [jsonToNbtLossy, Json.asBool]
    | _ => simp [jsonToNbtLossy, Json.asBool]

private theorem listField_lossy (name : String) :
    NbtText.listField (jsonToNbtLossy value) name = (listField value name).map itemsToNbtLossy := by
  rw [NbtText.listField, get_lossy, listField]
  cases value.get name with
  | none => rfl
  | some found =>
    cases found with
    | number n =>
      rw [Option.map_some]
      exact number_lossy n (fun _ => rfl) fun _ => rfl
    | _ => simp [jsonToNbtLossy, Json.asArray]

private theorem eventField_lossy (camel snake : String) :
    NbtText.eventField (jsonToNbtLossy value) camel snake = (eventField value camel snake).map jsonToNbtLossy := by
  rw [NbtText.eventField, get_lossy, get_lossy, eventField]
  cases value.get camel <;> rfl

private theorem parseClickEvent_lossy : NbtText.parseClickEvent (jsonToNbtLossy value) = parseClickEvent value := by
  rw [NbtText.parseClickEvent, parseClickEvent, eventField_lossy]
  cases eventField value "clickEvent" "click_event" with
  | none => rfl
  | some event => simp [stringField_lossy]

private theorem parseStyle_lossy (hoverEvent : Option (HoverEvent TextComponent)) :
    NbtText.parseStyle (jsonToNbtLossy value) hoverEvent = parseStyle value hoverEvent := by
  simp only [NbtText.parseStyle, parseStyle, stringField_lossy, boolField_lossy, parseClickEvent_lossy]

end

end Lookups

section NullFree

variable {value found : Json} {items : List Json}

private theorem anyContainsNull_eq_false :
    anyContainsNull items = false ↔ ∀ item ∈ items, containsNull item = false := by
  induction items with
  | nil => simp [anyContainsNull]
  | cons item rest ih => simp [anyContainsNull, ih]

private theorem entryContainsNull_eq_false {entries : List (String × Json)} :
    entryContainsNull entries = false ↔ ∀ entry ∈ entries, containsNull entry.2 = false := by
  induction entries with
  | nil => simp [entryContainsNull]
  | cons entry rest ih =>
    simp [entryContainsNull, ih]

private theorem get_nullFree (nullFree : containsNull value = false) {name : String}
    (lookup : value.get name = some found) :
    containsNull found = false := by
  cases value with
  | object entries =>
    obtain ⟨entry, search, rfl⟩ := Option.map_eq_some_iff.mp lookup
    exact entryContainsNull_eq_false.mp nullFree entry (mem_of_find?_eq_some search)
  | _ => cases lookup

private theorem listField_nullFree (nullFree : containsNull value = false) {name : String}
    (lookup : listField value name = some items) : ∀ item ∈ items, containsNull item = false := by
  obtain ⟨found, search, isArray⟩ := Option.bind_eq_some_iff.mp lookup
  have inside := get_nullFree nullFree search
  cases found with
  | array items =>
    cases isArray
    exact anyContainsNull_eq_false.mp inside
  | _ => cases isArray

private theorem eventField_nullFree (nullFree : containsNull value = false) {camel snake : String}
    (lookup : eventField value camel snake = some found) : containsNull found = false := by
  rcases Option.or_eq_some_iff.mp lookup with search | ⟨_, search⟩
  all_goals exact get_nullFree nullFree search

end NullFree

section Recursion

/-- The two parsers agree on a value, wherever they come upon it. -/
def Agree (value : Json) : Prop :=
  ∀ budget depth, NbtText.parse (jsonToNbtLossy value) budget depth =
    ((parse value budget depth).1 |> overNbt, (parse value budget depth).2)

variable {value : Json} {items : List Json}

private theorem literalBounded_overNbt (text : String) (budget : Budget) :
    overNbt (literalBounded text budget).1 = (literalBounded text budget).1 := by
  rw [literalBounded]
  split <;> rfl

private theorem literalBounded_content (text : String) (budget : Budget) :
    contentOverNbt (literalBounded text budget).1.content = (literalBounded text budget).1.content := by
  rw [literalBounded]
  split <;> rfl

theorem allOverNbt_append (first second : List TextComponent) :
    allOverNbt (first ++ second) = allOverNbt first ++ allOverNbt second := by
  induction first with
  | nil => rfl
  | cons component rest ih => rw [cons_append, allOverNbt, ih, allOverNbt, cons_append]

theorem overNbt_append (component : TextComponent) (more : List TextComponent) :
    overNbt { component with extra := component.extra ++ more } =
      { overNbt component with extra := (overNbt component).extra ++ allOverNbt more } := by
  obtain ⟨content, style, extra⟩ := component
  rw [overNbt, allOverNbt_append]
  rfl

private theorem parseRest_agree (below : ∀ item ∈ items, Agree item) (budget : Budget) (depth : ℕ) :
    NbtText.parseRest (itemsToNbtLossy items) budget depth =
      (allOverNbt (parseRest items budget depth).1, (parseRest items budget depth).2) := by
  induction items generalizing budget with
  | nil => simp [itemsToNbtLossy, NbtText.parseRest, parseRest, allOverNbt]
  | cons item rest ih =>
    rw [itemsToNbtLossy, NbtText.parseRest, parseRest, below item mem_cons_self]
    simp only [ih fun other member => below other (mem_cons_of_mem item member), allOverNbt]

private theorem parseList_agree (below : ∀ item ∈ items, Agree item) (budget : Budget) (depth : ℕ) :
    NbtText.parseList (itemsToNbtLossy items) budget depth =
      (allOverNbt (parseList items budget depth).1, (parseList items budget depth).2) := by
  induction items generalizing budget with
  | nil => simp [itemsToNbtLossy, NbtText.parseList, parseList, allOverNbt]
  | cons item rest ih =>
    rw [itemsToNbtLossy, NbtText.parseList, parseList]
    split
    · rfl
    · rw [below item mem_cons_self]
      simp only [ih fun other member => below other (mem_cons_of_mem item member), allOverNbt]

variable (below : ∀ inside, sizeOf inside < sizeOf value → containsNull inside = false → Agree inside)
  (nullFree : containsNull value = false)

include below nullFree

private theorem parseListField_agree (name : String) (budget : Budget) (depth : ℕ) :
    NbtText.parseListField (jsonToNbtLossy value) name budget depth =
      (allOverNbt (parseListField value name budget depth).1, (parseListField value name budget depth).2) := by
  rw [NbtText.parseListField_eq, parseListField_eq, listField_lossy]
  cases found : listField value name with
  | none => rfl
  | some items =>
    apply parseList_agree
    intro item member
    have smaller := (sizeOf_lt_of_mem member).trans (sizeOf_listField found)
    exact below item smaller (listField_nullFree nullFree found item member)

private theorem parseHoverEvent_agree (budget : Budget) :
    NbtText.parseHoverEvent (jsonToNbtLossy value) budget =
      (hoverOverNbt (parseHoverEvent value budget).1, (parseHoverEvent value budget).2) := by
  rw [NbtText.parseHoverEvent_eq, parseHoverEvent_eq, eventField_lossy]
  cases found : eventField value "hoverEvent" "hover_event" with
  | none => rfl
  | some event =>
    simp only [Option.map_some, stringField_lossy, eventField_lossy]
    cases stringField event "action" with
    | none => rfl
    | some action =>
      dsimp only
      split_ifs
      · cases inside : eventField event "contents" "value" with
        | none => rfl
        | some contents =>
          have smaller := (sizeOf_eventField inside).trans (sizeOf_eventField found)
          have clean := eventField_nullFree (eventField_nullFree nullFree found) inside
          simp only [Option.map_some, below contents smaller clean budget 0]
          rfl
      · rfl

private theorem parseObject_agree (budget : Budget) (depth : ℕ) :
    NbtText.parseCompound (jsonToNbtLossy value) budget depth =
      (overNbt (parseObject value budget depth).1, (parseObject value budget depth).2) := by
  rw [NbtText.parseCompound, parseObject]
  simp only [stringField_lossy, parseListField_agree below nullFree, parseHoverEvent_agree below nullFree,
    parseStyle_lossy]
  cases stringField value "text" with
  | some text =>
    rw [overNbt, literalBounded_content]
    rfl
  | none =>
    cases stringField value "translate" with
    | some key | none => rfl

omit below nullFree in
private theorem agree_of_nullFree (value : Json) (nullFree : containsNull value = false) : Agree value := by
  -- Lookups skip levels, so the induction is on the size of the value.
  induction size : sizeOf value using Nat.strongRecOn generalizing value with
  | ind bound ih =>
    have below : ∀ inside, sizeOf inside < sizeOf value → containsNull inside = false → Agree inside :=
      fun inside smaller clean => ih _ (size ▸ smaller) inside clean rfl
    intro budget depth
    rw [NbtText.parse, parse]
    split_ifs
    · rfl
    · cases budget.takeNode with
      | none => rfl
      | some left =>
        cases value with
        | null => cases nullFree
        | bool b => rfl
        | number n => exact number_lossy n (fun _ => rfl) fun _ => rfl
        | string text =>
          simp only [jsonToNbtLossy]
          rw [literalBounded_overNbt]
        | array items =>
          cases items with
          | nil => rfl
          | cons first rest =>
            have clean := anyContainsNull_eq_false.mp nullFree
            have inside : ∀ item ∈ first :: rest, Agree item := by
              intro item member
              have smaller := sizeOf_lt_of_mem member
              apply below item _ (clean item member)
              rw [Json.array.sizeOf_spec]
              omega
            simp only [jsonToNbtLossy, itemsToNbtLossy]
            rw [inside first mem_cons_self,
              parseRest_agree fun item member => inside item (mem_cons_of_mem first member), overNbt_append]
        | object entries => exact parseObject_agree below nullFree left depth

end Recursion

section Results

/-- The two entry points agree on a value without `null`. -/
theorem fromNbt_eq_fromJson (text : String) (value : Json) (nullFree : containsNull value = false) :
    TextComponent.fromNbt (jsonToNbtLossy value) = overNbt (TextComponent.fromJson text (some value)) := by
  rw [TextComponent.fromNbt, agree_of_nullFree value nullFree]
  rfl

/-- A value without `null` is the same component in both encodings, from any budget and depth on. -/
theorem encodings_agree (value : Json) (nullFree : containsNull value = false) (budget : Budget) (depth : ℕ) :
    NbtText.parse (jsonToNbtLossy value) budget depth =
      (overNbt (parse value budget depth).1, (parse value budget depth).2) :=
  agree_of_nullFree value nullFree budget depth

/-- A greeting with a style, a hover text, an argument and a sibling. -/
def greeting : Json :=
  .object [("translate", .string "chat.type.text"), ("with", .array [.string "Steve", .number (.posInt 3)]),
    ("bold", .bool true),
    ("hoverEvent", .object [("action", .string "show_text"), ("contents", .object [("text", .string "hi")])]),
    ("extra", .array [.array [.string "a", .string "b"]])]

theorem greeting_encodings_agree : containsNull greeting = false ∧
    NbtText.parse (jsonToNbtLossy greeting) .new 0 =
      (overNbt (parse greeting .new 0).1, (parse greeting .new 0).2) :=
  ⟨rfl, encodings_agree greeting rfl .new 0⟩

end Results

end MineRider.Soundness.TextEncodings
