import MineRider.Model.Protocol.NbtEq

/-! # Text components

Chat, titles, boss bars and disconnect reasons are trees of text components, sent as network NBT or,
during login, as JSON. Parsing never fails: what cannot be read becomes an empty literal. The depth of
the recursion, the number of nodes and the bytes of literal text are bounded; nodes and bytes are
counted over the whole tree, hover events included, while a hover event starts at depth zero again.

A JSON object is the list of its entries, and the first entry of a name counts.
-/

namespace MineRider.Model.Minecraft

open Protocol

section Values

/-- A number of `serde_json`; a float is its bit pattern. -/
inductive Number where
  | posInt (n : UInt64)
  | negInt (n : Int64)
  | float (bits : UInt64)
deriving DecidableEq, Repr

inductive Json where
  | null
  | bool (b : Bool)
  | number (n : Number)
  | string (text : String)
  | array (items : List Json)
  | object (entries : List (String × Json))
deriving Repr

/-- `n as f64`: the nearest float, and the even one of two. -/
def f64OfNat (n : ℕ) : UInt64 :=
  if n = 0 then 0
  else
    let exponent := n.log2
    let significand :=
      if exponent ≤ 52 then n <<< (52 - exponent)
      else
        let dropped := exponent - 52
        let rest := n % 2 ^ dropped
        let half := 2 ^ (dropped - 1)
        let kept := n >>> dropped
        if rest > half ∨ rest = half ∧ kept % 2 = 1 then kept + 1 else kept
    UInt64.ofNat ((exponent + 1022) * 2 ^ 52 + significand)

namespace Number

def asI64 : Number → Option Int64
  | .posInt n => if n ≤ 0x7FFFFFFFFFFFFFFF then some n.toInt64 else none
  | .negInt n => some n
  | .float _ => none

def asF64 : Number → Option UInt64
  | .posInt n => some (f64OfNat n.toNat)
  | .negInt n => some (f64OfNat n.toInt.natAbs ||| if n < 0 then 0x8000000000000000 else 0)
  | .float bits => some bits

end Number

namespace Json

/-- `Value::get` with a name. -/
def get : Json → String → Option Json
  | .object entries, name => (entries.find? (·.1 == name)).map (·.2)
  | _, _ => none

def asStr : Json → Option String
  | .string text => some text
  | _ => none

def asBool : Json → Option Bool
  | .bool b => some b
  | _ => none

def asArray : Json → Option (List Json)
  | .array items => some items
  | _ => none

end Json

end Values

section Components

structure ClickEvent where
  action : String
  value : String

/-- The payload of a hover event, in the encoding it was parsed from. -/
inductive RawEvent where
  | nbt (raw : Nbt)
  | json (raw : Json)

inductive Color where
  | named (name : String)
  | hex (digits : String)

structure HoverEvent (Component : Type) where
  action : String
  text : Option Component
  raw : RawEvent

structure Style (Component : Type) where
  color : Option Color
  bold : Option Bool
  italic : Option Bool
  underlined : Option Bool
  strikethrough : Option Bool
  obfuscated : Option Bool
  insertion : Option String
  font : Option String
  clickEvent : Option ClickEvent
  hoverEvent : Option (HoverEvent Component)

def Style.default {Component : Type} : Style Component where
  color := none
  bold := none
  italic := none
  underlined := none
  strikethrough := none
  obfuscated := none
  insertion := none
  font := none
  clickEvent := none
  hoverEvent := none

inductive Content (Component : Type) where
  | literal (text : String)
  | translate (key : String) (args : List Component)
  /-- A kind that is not interpreted. -/
  | unknown (raw : Nbt)

structure TextComponent where
  content : Content TextComponent
  style : Style TextComponent
  /-- The siblings, in order. -/
  extra : List TextComponent

def TextComponent.literal (text : String) : TextComponent := ⟨.literal text, .default, []⟩

def parseColor (raw : String) : Color :=
  match raw.toList with
  | '#' :: hex => .hex (String.ofList hex)
  | _ => .named raw

end Components

section Limits

def maxDepth : ℕ := 64
def maxNodes : ℕ := 4096
def maxTextBytes : ℕ := 262144

/-- What has been spent. -/
structure Budget where
  nodes : ℕ
  textBytes : ℕ
deriving DecidableEq, Repr

namespace Budget

def new : Budget := ⟨0, 0⟩

def isExhausted (budget : Budget) : Bool := budget.nodes ≥ maxNodes

/-- Takes a node if one is left. -/
def takeNode (budget : Budget) : Option Budget :=
  if budget.isExhausted then none else some { budget with nodes := budget.nodes + 1 }

/-- Takes some bytes of text if they are left. -/
def takeText (budget : Budget) (len : ℕ) : Option Budget :=
  if budget.textBytes + len > maxTextBytes then none else some { budget with textBytes := budget.textBytes + len }

end Budget

def literalBounded (text : String) (budget : Budget) : TextComponent × Budget :=
  match budget.takeText text.utf8ByteSize with
  | some budget => (.literal text, budget)
  | none => (.literal "", budget)

end Limits

section Sizes

variable {name : String}

/-- A value that is found among named ones is smaller than all of them. -/
theorem sizeOf_find {α : Type} [SizeOf α] {entries : List (String × α)} {found : α}
    (lookup : (entries.find? (·.1 == name)).map (·.2) = some found) : sizeOf found < sizeOf entries := by
  obtain ⟨⟨key, value⟩, search, rfl⟩ := Option.map_eq_some_iff.mp lookup
  have smaller := List.sizeOf_lt_of_mem (List.mem_of_find?_eq_some search)
  simp only [Prod.mk.sizeOf_spec] at smaller ⊢
  omega

theorem sizeOf_get_nbt {value found : Nbt} (lookup : value.get name = some found) :
    sizeOf found < sizeOf value := by
  cases value with
  | compound entries =>
    have smaller := sizeOf_find lookup
    simp only [Nbt.compound.sizeOf_spec]
    omega
  | _ => cases lookup

theorem sizeOf_get_json {value found : Json} (lookup : value.get name = some found) :
    sizeOf found < sizeOf value := by
  cases value with
  | object entries =>
    have smaller := sizeOf_find lookup
    simp only [Json.object.sizeOf_spec]
    omega
  | _ => cases lookup

end Sizes

/-! ## Network NBT -/

namespace NbtText

def stringField (value : Nbt) (key : String) : Option String :=
  match value.get key with
  | some (.string s) => some s
  | _ => none

def boolField (value : Nbt) (key : String) : Option Bool :=
  match value.get key with
  | some (.byte b) => some (b != 0)
  | _ => none

def listField (value : Nbt) (name : String) : Option (List Nbt) :=
  match value.get name with
  | some (.list _ items) => some items
  | _ => none

/-- Events are looked up under both spellings. -/
def eventField (value : Nbt) (camel snake : String) : Option Nbt := (value.get camel).or (value.get snake)

def parseClickEvent (value : Nbt) : Option ClickEvent := do
  let event ← eventField value "clickEvent" "click_event"
  let action ← stringField event "action"
  pure ⟨action, (stringField event "value").getD ""⟩

def parseStyle (value : Nbt) (hoverEvent : Option (HoverEvent TextComponent)) : Style TextComponent where
  color := (stringField value "color").map parseColor
  bold := boolField value "bold"
  italic := boolField value "italic"
  underlined := boolField value "underlined"
  strikethrough := boolField value "strikethrough"
  obfuscated := boolField value "obfuscated"
  insertion := stringField value "insertion"
  font := stringField value "font"
  clickEvent := parseClickEvent value
  hoverEvent

theorem sizeOf_listField {value : Nbt} {name : String} {items : List Nbt}
    (lookup : listField value name = some items) : sizeOf items < sizeOf value := by
  rw [listField] at lookup
  split at lookup
  · rename_i tag found search
    cases lookup
    have smaller := sizeOf_get_nbt search
    simp only [Nbt.list.sizeOf_spec] at smaller
    omega
  · cases lookup

theorem sizeOf_eventField {value event : Nbt} {camel snake : String}
    (lookup : eventField value camel snake = some event) : sizeOf event < sizeOf value := by
  rcases Option.or_eq_some_iff.mp lookup with found | ⟨_, found⟩
  all_goals exact sizeOf_get_nbt found

mutual

def parse (value : Nbt) (budget : Budget) (depth : ℕ) : TextComponent × Budget :=
  if depth > maxDepth then (.literal "", budget)
  else
    match budget.takeNode with
    | none => (.literal "", budget)
    | some budget =>
      match value with
      | .string text => literalBounded text budget
      | .list _ [] => (.literal "", budget)
      | .list _ (first :: rest) =>
        -- A bare list is its first component, with the others behind it.
        let (component, budget) := parse first budget (depth + 1)
        let (more, budget) := parseRest rest budget (depth + 1)
        ({ component with extra := component.extra ++ more }, budget)
      | .compound entries => parseCompound (.compound entries) budget depth
      | _ => (.literal "", budget)
termination_by (sizeOf value, 2)

/-- The loop over the other components of a bare list. -/
def parseRest (items : List Nbt) (budget : Budget) (depth : ℕ) : List TextComponent × Budget :=
  match items with
  | [] => ([], budget)
  | item :: rest =>
    let (component, budget) := parse item budget depth
    let (components, budget) := parseRest rest budget depth
    (component :: components, budget)
termination_by (sizeOf items, 0)

def parseCompound (value : Nbt) (budget : Budget) (depth : ℕ) : TextComponent × Budget :=
  let (content, budget) : Content TextComponent × Budget :=
    match stringField value "text" with
    | some text =>
      let (component, budget) := literalBounded text budget
      (component.content, budget)
    | none =>
      match stringField value "translate" with
      | some key =>
        let (args, budget) := parseListField value "with" budget depth
        (.translate key args, budget)
      | none => (.unknown value, budget)
  let (hoverEvent, budget) := parseHoverEvent value budget
  let (extra, budget) := parseListField value "extra" budget depth
  (⟨content, parseStyle value hoverEvent, extra⟩, budget)
termination_by (sizeOf value, 1)

/-- Unlike a bare list, this one ends where the nodes end. -/
def parseList (items : List Nbt) (budget : Budget) (depth : ℕ) : List TextComponent × Budget :=
  match items with
  | [] => ([], budget)
  | item :: rest =>
    if budget.isExhausted then ([], budget)
    else
      let (component, budget) := parse item budget (depth + 1)
      let (components, budget) := parseList rest budget depth
      (component :: components, budget)
termination_by (sizeOf items, 0)

/-- The components in a list under a name, if there is one. -/
def parseListField (value : Nbt) (name : String) (budget : Budget) (depth : ℕ) : List TextComponent × Budget :=
  match found : listField value name with
  | some items =>
    have := sizeOf_listField found
    parseList items budget depth
  | none => ([], budget)
termination_by (sizeOf value, 0)

def parseHoverEvent (value : Nbt) (budget : Budget) : Option (HoverEvent TextComponent) × Budget :=
  match found : eventField value "hoverEvent" "hover_event" with
  | none => (none, budget)
  | some event =>
    match stringField event "action" with
    | none => (none, budget)
    | some action =>
      if action = "show_text" then
        match inside : eventField event "contents" "value" with
        | some contents =>
          have := sizeOf_eventField found
          have := sizeOf_eventField inside
          let (text, budget) := parse contents budget 0
          (some ⟨action, some text, .nbt event⟩, budget)
        | none => (some ⟨action, none, .nbt event⟩, budget)
      else (some ⟨action, none, .nbt event⟩, budget)
termination_by (sizeOf value, 0)

end

-- The equations of the functions above, without their proofs of termination.

theorem parseListField_eq (value : Nbt) (name : String) (budget : Budget) (depth : ℕ) :
    parseListField value name budget depth =
      match listField value name with
      | some items => parseList items budget depth
      | none => ([], budget) := by
  rw [parseListField]
  split
  · rename_i items found
    simp only [found]
  · rename_i found
    simp only [found]

theorem parseHoverEvent_eq (value : Nbt) (budget : Budget) : parseHoverEvent value budget =
    match eventField value "hoverEvent" "hover_event" with
    | none => (none, budget)
    | some event =>
      match stringField event "action" with
      | none => (none, budget)
      | some action =>
        if action = "show_text" then
          match eventField event "contents" "value" with
          | some contents =>
            (some ⟨action, some (parse contents budget 0).1, .nbt event⟩, (parse contents budget 0).2)
          | none => (some ⟨action, none, .nbt event⟩, budget)
        else (some ⟨action, none, .nbt event⟩, budget) := by
  rw [parseHoverEvent]
  split
  · rename_i found
    simp only [found]
  · rename_i event found
    simp only [found]
    cases stringField event "action" with
    | none => rfl
    | some action =>
      dsimp only
      split_ifs
      · split
        · rename_i contents inside
          simp only [inside]
        · rename_i inside
          simp only [inside]
      · rfl

end NbtText

/-! ## JSON -/

namespace JsonText

mutual

/-- `json_to_nbt_lossy` -/
def jsonToNbtLossy : Json → Nbt
  | .null => .compound []
  | .bool b => .byte (if b then 1 else 0)
  | .number n => ((n.asI64.map Nbt.long).or (n.asF64.map Nbt.double)).getD (.long 0)
  | .string text => .string text
  | .array items =>
    let items := itemsToNbtLossy items
    .list ((items.head?.map Nbt.tagId).getD 8) items
  | .object entries => .compound (entriesToNbtLossy entries)

def itemsToNbtLossy : List Json → List Nbt
  | [] => []
  | item :: rest => jsonToNbtLossy item :: itemsToNbtLossy rest

def entriesToNbtLossy : List (String × Json) → List (String × Nbt)
  | [] => []
  | (name, value) :: rest => (name, jsonToNbtLossy value) :: entriesToNbtLossy rest

end

def stringField (value : Json) (key : String) : Option String := (value.get key).bind Json.asStr

def boolField (value : Json) (key : String) : Option Bool := (value.get key).bind Json.asBool

def listField (value : Json) (name : String) : Option (List Json) := (value.get name).bind Json.asArray

def eventField (value : Json) (camel snake : String) : Option Json := (value.get camel).or (value.get snake)

def parseClickEvent (value : Json) : Option ClickEvent := do
  let event ← eventField value "clickEvent" "click_event"
  let action ← stringField event "action"
  pure ⟨action, (stringField event "value").getD ""⟩

def parseStyle (value : Json) (hoverEvent : Option (HoverEvent TextComponent)) : Style TextComponent where
  color := (stringField value "color").map parseColor
  bold := boolField value "bold"
  italic := boolField value "italic"
  underlined := boolField value "underlined"
  strikethrough := boolField value "strikethrough"
  obfuscated := boolField value "obfuscated"
  insertion := stringField value "insertion"
  font := stringField value "font"
  clickEvent := parseClickEvent value
  hoverEvent

theorem sizeOf_listField {value : Json} {name : String} {items : List Json}
    (lookup : listField value name = some items) : sizeOf items < sizeOf value := by
  obtain ⟨found, search, isArray⟩ := Option.bind_eq_some_iff.mp lookup
  have smaller := sizeOf_get_json search
  cases found with
  | array items =>
    cases isArray
    simp only [Json.array.sizeOf_spec] at smaller
    omega
  | _ => cases isArray

theorem sizeOf_eventField {value event : Json} {camel snake : String}
    (lookup : eventField value camel snake = some event) : sizeOf event < sizeOf value := by
  rcases Option.or_eq_some_iff.mp lookup with found | ⟨_, found⟩
  all_goals exact sizeOf_get_json found

mutual

def parse (value : Json) (budget : Budget) (depth : ℕ) : TextComponent × Budget :=
  if depth > maxDepth then (.literal "", budget)
  else
    match budget.takeNode with
    | none => (.literal "", budget)
    | some budget =>
      match value with
      | .string text => literalBounded text budget
      | .array [] => (.literal "", budget)
      | .array (first :: rest) =>
        let (component, budget) := parse first budget (depth + 1)
        let (more, budget) := parseRest rest budget (depth + 1)
        ({ component with extra := component.extra ++ more }, budget)
      | .object entries => parseObject (.object entries) budget depth
      | _ => (.literal "", budget)
termination_by (sizeOf value, 2)

def parseRest (items : List Json) (budget : Budget) (depth : ℕ) : List TextComponent × Budget :=
  match items with
  | [] => ([], budget)
  | item :: rest =>
    let (component, budget) := parse item budget depth
    let (components, budget) := parseRest rest budget depth
    (component :: components, budget)
termination_by (sizeOf items, 0)

def parseObject (value : Json) (budget : Budget) (depth : ℕ) : TextComponent × Budget :=
  let (content, budget) : Content TextComponent × Budget :=
    match stringField value "text" with
    | some text =>
      let (component, budget) := literalBounded text budget
      (component.content, budget)
    | none =>
      match stringField value "translate" with
      | some key =>
        let (args, budget) := parseListField value "with" budget depth
        (.translate key args, budget)
      | none => (.unknown (jsonToNbtLossy value), budget)
  let (hoverEvent, budget) := parseHoverEvent value budget
  let (extra, budget) := parseListField value "extra" budget depth
  (⟨content, parseStyle value hoverEvent, extra⟩, budget)
termination_by (sizeOf value, 1)

def parseList (items : List Json) (budget : Budget) (depth : ℕ) : List TextComponent × Budget :=
  match items with
  | [] => ([], budget)
  | item :: rest =>
    if budget.isExhausted then ([], budget)
    else
      let (component, budget) := parse item budget (depth + 1)
      let (components, budget) := parseList rest budget depth
      (component :: components, budget)
termination_by (sizeOf items, 0)

def parseListField (value : Json) (name : String) (budget : Budget) (depth : ℕ) : List TextComponent × Budget :=
  match found : listField value name with
  | some items =>
    have := sizeOf_listField found
    parseList items budget depth
  | none => ([], budget)
termination_by (sizeOf value, 0)

def parseHoverEvent (value : Json) (budget : Budget) : Option (HoverEvent TextComponent) × Budget :=
  match found : eventField value "hoverEvent" "hover_event" with
  | none => (none, budget)
  | some event =>
    match stringField event "action" with
    | none => (none, budget)
    | some action =>
      if action = "show_text" then
        match inside : eventField event "contents" "value" with
        | some contents =>
          have := sizeOf_eventField found
          have := sizeOf_eventField inside
          let (text, budget) := parse contents budget 0
          (some ⟨action, some text, .json event⟩, budget)
        | none => (some ⟨action, none, .json event⟩, budget)
      else (some ⟨action, none, .json event⟩, budget)
termination_by (sizeOf value, 0)

end

theorem parseListField_eq (value : Json) (name : String) (budget : Budget) (depth : ℕ) :
    parseListField value name budget depth =
      match listField value name with
      | some items => parseList items budget depth
      | none => ([], budget) := by
  rw [parseListField]
  split
  · rename_i items found
    simp only [found]
  · rename_i found
    simp only [found]

theorem parseHoverEvent_eq (value : Json) (budget : Budget) : parseHoverEvent value budget =
    match eventField value "hoverEvent" "hover_event" with
    | none => (none, budget)
    | some event =>
      match stringField event "action" with
      | none => (none, budget)
      | some action =>
        if action = "show_text" then
          match eventField event "contents" "value" with
          | some contents =>
            (some ⟨action, some (parse contents budget 0).1, .json event⟩, (parse contents budget 0).2)
          | none => (some ⟨action, none, .json event⟩, budget)
        else (some ⟨action, none, .json event⟩, budget) := by
  rw [parseHoverEvent]
  split
  · rename_i found
    simp only [found]
  · rename_i event found
    simp only [found]
    cases stringField event "action" with
    | none => rfl
    | some action =>
      dsimp only
      split_ifs
      · split
        · rename_i contents inside
          simp only [inside]
        · rename_i inside
          simp only [inside]
      · rfl

end JsonText

namespace TextComponent

def fromNbt (nbt : Nbt) : TextComponent := (NbtText.parse nbt .new 0).1

/-- `from_json_str`, behind the parser of `serde_json`. -/
def fromJson (text : String) : Option Json → TextComponent
  | some value => (JsonText.parse value .new 0).1
  | none => .literal text

end TextComponent

end MineRider.Model.Minecraft
