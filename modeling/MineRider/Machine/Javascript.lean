import MineRider.Machine.Substring
import MineRider.ToMathlib.Concat

/-! # Texts and values of JavaScript

What a JavaScript program sees of strings and of parsed JSON. A string is a list of 16-bit code units. Numbers are
left open, with the questions a program asks of them. `asText` is the conversion to a string, which throws for an
object that hides `toString` behind a property of its own, and `stringify` is the JSON text of a value: an array or
object is written out as it is, and a string is quoted, with an escape sequence for every unit that must not stand for
itself.
-/

namespace MineRider.Machine.Js

open List

abbrev Text := List UInt16

section Text

/-- The code units of a character. -/
def codeUnits (c : Char) : Text :=
  if c.toNat < 0x10000 then [.ofNat c.toNat]
  else [.ofNat (0xD800 + (c.toNat - 0x10000) / 0x400), .ofNat (0xDC00 + (c.toNat - 0x10000) % 0x400)]

/-- A string literal. -/
def lit (literal : String) : Text := literal.toList.flatMap codeUnits

/-- The white space and line ends that `trim` removes. -/
def isSpace (unit : UInt16) : Bool :=
  (0x9 ≤ unit && unit ≤ 0xD) || unit == 0x20 || unit == 0xA0 || unit == 0x1680 ||
    (0x2000 ≤ unit && unit ≤ 0x200A) || unit == 0x2028 || unit == 0x2029 || unit == 0x202F || unit == 0x205F ||
    unit == 0x3000 || unit == 0xFEFF

def trim (text : Text) : Text := ((text.dropWhile isSpace).reverse.dropWhile isSpace).reverse

/-- The index of the first occurrence of a word. -/
def indexOf (word : Text) : Text → Option ℕ
  | [] => if word = [] then some 0 else none
  | unit :: rest => if word <+: unit :: rest then some 0 else (indexOf word rest).map (· + 1)

theorem mem_of_mem_trim {text : Text} {unit : UInt16} (member : unit ∈ trim text) : unit ∈ text := by
  have inner := (dropWhile_sublist isSpace).mem (mem_reverse.mp member)
  exact (dropWhile_sublist isSpace).mem (mem_reverse.mp inner)

end Text

section Values

/-- Numbers, as far as a program looks at them: the falsy ones, the whole ones, and their two texts. -/
structure Numbers (N : Type) where
  isFalsy : N → Bool
  isInteger : N → Bool
  asText : N → Text
  asJson : N → Text

/-- A value as `JSON.parse` builds it; the fields of an object are listed in the order of its properties. -/
inductive Value (N : Type) where
  | null
  | bool (value : Bool)
  | number (value : N)
  | string (value : Text)
  | array (items : List (Value N))
  | object (fields : List (Text × Value N))

variable {N : Type} (numbers : Numbers N)

/-- The truth of a property; a missing one is `undefined`. -/
def truthy : Option (Value N) → Bool
  | none => false
  | some .null => false
  | some (.bool value) => value
  | some (.number value) => !numbers.isFalsy value
  | some (.string value) => !value.isEmpty
  | some (.array _) => true
  | some (.object _) => true

/-- `first || second` -/
def orElse (first : Option (Value N)) (second : Value N) : Value N :=
  match first with
  | some value => if truthy numbers first then value else second
  | none => second

/-- What a conversion of a parsed value can throw. -/
inductive TypeError where
  | objectToPrimitive
deriving DecidableEq, Repr

def TypeError.message : TypeError → Text
  | .objectToPrimitive => lit "Cannot convert object to primitive value"

namespace Value

/-- The own properties; those of an array are its indices. -/
def ownFields : Value N → List (Text × Value N)
  | .array items => items.zipIdx.map fun (item, i) => (lit (toString i), item)
  | .object fields => fields
  | _ => []

def get (value : Value N) (name : Text) : Option (Value N) := (value.ownFields.find? (·.1 = name)).map (·.2)

/-- `typeof value === 'object'`, without `null`. -/
def isObject : Value N → Bool
  | .array _ => true
  | .object _ => true
  | _ => false

section Conversion

mutual

/-- `String(value)`. No property of a parsed object can be called, so an object with its own `toString` has no text. -/
def asText : Value N → Except TypeError Text
  | .null => .ok (lit "null")
  | .bool value => .ok (lit (toString value))
  | .number value => .ok (numbers.asText value)
  | .string value => .ok value
  | .array items => do .ok ((lit ",").intercalate (← itemTexts items))
  | .object fields =>
    if fields.any (·.1 = lit "toString") then .error .objectToPrimitive
    else .ok (lit "[object Object]")

/-- What `join` puts between the commas. -/
def itemTexts : List (Value N) → Except TypeError (List Text)
  | [] => .ok []
  | .null :: items => do .ok ([] :: (← itemTexts items))
  | item :: items => do .ok ((← asText item) :: (← itemTexts items))

end

end Conversion

section Strings

mutual

/-- The strings in a value, with the names of its properties. -/
def strings : Value N → List Text
  | .string value => [value]
  | .array items => itemStrings items
  | .object fields => fieldStrings fields
  | _ => []

def itemStrings : List (Value N) → List Text
  | [] => []
  | item :: items => strings item ++ itemStrings items

def fieldStrings : List (Text × Value N) → List Text
  | [] => []
  | (name, value) :: fields => name :: strings value ++ fieldStrings fields

end

end Strings

end Value

end Values

section Json

def hexDigit (n : UInt16) : UInt16 := if n < 10 then 0x30 + n else 0x57 + n

/-- The escape sequence of a unit that a JSON string may not contain. -/
def unitEscape (unit : UInt16) : Text :=
  if unit = 0x8 then lit "\\b"
  else if unit = 0x9 then lit "\\t"
  else if unit = 0xA then lit "\\n"
  else if unit = 0xC then lit "\\f"
  else if unit = 0xD then lit "\\r"
  else if unit = 0x22 then lit "\\\""
  else if unit = 0x5C then lit "\\\\"
  else lit "\\u" ++ [hexDigit (unit >>> 12), hexDigit ((unit >>> 8) &&& 15), hexDigit ((unit >>> 4) &&& 15),
    hexDigit (unit &&& 15)]

def isHigh (unit : UInt16) : Bool := 0xD800 ≤ unit && unit ≤ 0xDBFF
def isLow (unit : UInt16) : Bool := 0xDC00 ≤ unit && unit ≤ 0xDFFF

/-- Control characters, quotes and backslashes are always escaped. -/
def isForbidden (unit : UInt16) : Bool := unit < 0x20 || unit == 0x22 || unit == 0x5C

/-- A unit that may be escaped: a surrogate is if it has no partner. -/
def mayEscape (unit : UInt16) : Bool := isForbidden unit || isHigh unit || isLow unit

/-- The contents of a quoted string. -/
def escape : Text → Text
  | [] => []
  | [unit] => if mayEscape unit then unitEscape unit else [unit]
  | unit :: next :: rest =>
    if isHigh unit && isLow next then unit :: next :: escape rest
    else if mayEscape unit then unitEscape unit ++ escape (next :: rest)
    else unit :: escape (next :: rest)

def quote (text : Text) : Text := lit "\"" ++ escape text ++ lit "\""

variable {N : Type} (numbers : Numbers N)

namespace Value

mutual

/-- `JSON.stringify(value)` -/
def stringify : Value N → Text
  | .null => lit "null"
  | .bool value => lit (toString value)
  | .number value => numbers.asJson value
  | .string value => quote value
  | .array items => lit "[" ++ (lit ",").intercalate (itemJsons items) ++ lit "]"
  | .object fields => lit "\x7b" ++ (lit ",").intercalate (fieldJsons fields) ++ lit "\x7d"

def itemJsons : List (Value N) → List Text
  | [] => []
  | item :: items => stringify item :: itemJsons items

def fieldJsons : List (Text × Value N) → List Text
  | [] => []
  | (name, value) :: fields => (quote name ++ lit ":" ++ stringify value) :: fieldJsons fields

end

end Value

/-- What quoting does to a text is harmless if the word is apart from every escape sequence that it may use. -/
theorem escape_escapes {word : Text} (text : Text) (apart : ∀ unit ∈ text, mayEscape unit = true →
    Apart word (unitEscape unit)) : Escapes word text (escape text) := by
  fun_induction escape text with
  | case1 => exact .nil
  | case2 unit special =>
    have := Escapes.replace unit (apart unit (by simp) special) .nil
    simpa using this
  | case3 unit plain => exact .keep unit .nil
  | case4 unit next rest paired ih =>
    exact .keep unit (.keep next (ih fun other member => apart other (by simp [member])))
  | case5 unit next rest unpaired special ih =>
    exact .replace unit (apart unit (by simp) special) (ih fun other member => apart other (by simp_all))
  | case6 unit next rest unpaired plain ih =>
    exact .keep unit (ih fun other member => apart other (by simp_all))

end Json

section Objects

variable {N : Type}

/-- An assignment to a property keeps its place, or adds it at the end. -/
def setField (fields : List (Text × Value N)) (name : Text) (value : Value N) : List (Text × Value N) :=
  if fields.any (·.1 = name) then fields.map fun field => if field.1 = name then (name, value) else field
  else fields ++ [(name, value)]

def decimalDigits (text : Text) : Option ℕ :=
  text.foldl (fun value unit => value.bind fun n =>
    if 0x30 ≤ unit && unit ≤ 0x39 then some (n * 10 + (unit - 0x30).toNat) else none) (some 0)

/-- The number that a property name spells, if it is an array index. -/
def arrayIndex (name : Text) : Option ℕ :=
  (decimalDigits name).bind fun n => if lit (toString n) = name ∧ n < 4294967295 then some n else none

/-- The order of the properties of an object: array indices come first, from the smallest on. -/
def ordered (fields : List (Text × Value N)) : List (Text × Value N) :=
  ((fields.filterMap fun field => (arrayIndex field.1).map fun i => (i, field)).mergeSort
      fun first second => first.1 ≤ second.1).map (·.2) ++
    fields.filter fun field => (arrayIndex field.1).isNone

/-- The object with the fields assigned one after the other. -/
def object (assignments : List (Text × Value N)) : Value N :=
  .object (ordered (assignments.foldl (fun fields field => setField fields field.1 field.2) []))

end Objects

section Maps

variable {κ α : Type} [DecidableEq κ]

/-- A `Map`, in the order in which its keys were added. -/
abbrev Map (κ α : Type) := List (κ × α)

def Map.get (map : Map κ α) (key : κ) : Option α := (map.find? (·.1 = key)).map (·.2)

def Map.set (map : Map κ α) (key : κ) (value : α) : Map κ α :=
  if map.any (·.1 = key) then map.map fun entry => if entry.1 = key then (key, value) else entry
  else map ++ [(key, value)]

variable {map : Map κ α} {key : κ} {value : α}

theorem Map.mem_set {entry : κ × α} (member : entry ∈ map.set key value) :
    entry = (key, value) ∨ entry ∈ map := by
  unfold Map.set at member
  split at member
  · obtain ⟨old, listed, same⟩ := mem_map.mp member
    split at same
    · exact .inl same.symm
    · exact .inr (same ▸ listed)
  · exact (mem_concat_iff.mp member).symm

theorem Map.get_append (new : ∀ entry ∈ map, entry.1 ≠ key) (other : κ) :
    Map.get (map ++ [(key, value)]) other = if other = key then some value else Map.get map other := by
  unfold Map.get
  by_cases same : other = key
  · subst same
    have absent : map.find? (·.1 = other) = none := by simpa using fun a b member => new (a, b) member
    simp [absent]
  · simp [same, Ne.symm same]

theorem Map.get_replace (map : Map κ α) (key : κ) (value : α) (other : κ) :
    Map.get (map.map fun entry => if entry.1 = key then (key, value) else entry) other =
      (Map.get map other).map fun old => if other = key then value else old := by
  unfold Map.get
  induction map with
  | nil => rfl
  | cons entry rest ih =>
    by_cases found : entry.1 = other
    · subst found
      by_cases changed : entry.1 = key
      all_goals simp [changed]
    · have missed : (if entry.1 = key then (key, value) else entry).1 ≠ other := by
        split
        · rename_i changed
          exact changed ▸ found
        · exact found
      simpa [found, missed] using ih

theorem Map.get_set {value old : α} (known : Map.get map key = some old) (other : κ) :
    Map.get (map.set key value) other = if other = key then some value else Map.get map other := by
  have present : map.any (·.1 = key) = true := by
    obtain ⟨entry, found, _⟩ := Option.map_eq_some_iff.mp known
    have named := find?_some found
    exact any_eq_true.mpr ⟨entry, mem_of_find?_eq_some found, named⟩
  rw [Map.set, if_pos present, Map.get_replace]
  by_cases same : other = key
  · subst same
    simp [known]
  · simp [same]

theorem Map.mem_of_get (found : Map.get map key = some value) :
    (key, value) ∈ map := by
  obtain ⟨entry, listed, rfl⟩ := Option.map_eq_some_iff.mp found
  have same := find?_some listed
  obtain ⟨entryKey, entryValue⟩ := entry
  obtain rfl : entryKey = key := by simpa using same
  exact mem_of_find?_eq_some listed

end Maps

end MineRider.Machine.Js
