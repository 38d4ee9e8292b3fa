import MineRider.Model.Panel.Lines

/-! # Lines and objects in the output of the process

In whatever chunks the output arrives, its lines are those of the whole text. A JSON object is cut out of the line it
stands in as it is, since its braces are balanced outside its strings.
-/

namespace MineRider.Soundness.PanelLines

open List Machine.Js Model.Panel

section Lines

/-- The lines of a text, which a line feed or a carriage return and a line feed separate. -/
inductive Lines : Text → List Text → Prop where
  | last {line : Text} (whole : 0x0A ∉ line) : Lines line [line]
  | lf {line rest : Text} {lines : List Text} (whole : 0x0A ∉ line) (bare : line.getLast? ≠ some 0x0D)
      (after : Lines rest lines) : Lines (line ++ 0x0A :: rest) (line :: lines)
  | crlf {line rest : Text} {lines : List Text} (whole : 0x0A ∉ line) (after : Lines rest lines) :
      Lines (line ++ 0x0D :: 0x0A :: rest) (line :: lines)

variable {current : Text} (whole : 0x0A ∉ current)

include whole

private theorem concat_whole {unit : UInt16} (other : unit ≠ 0x0A) : 0x0A ∉ current ++ [unit] := by
  simp [whole, other.symm]

private theorem splitLinesFrom_lines (text : Text) : Lines (current ++ text) (splitLinesFrom current text) := by
  induction text generalizing current with
  | nil =>
    rw [append_nil]
    exact .last whole
  | cons unit rest ih =>
    rw [splitLinesFrom]
    split_ifs with feed ends
    · obtain ⟨line, rfl⟩ := getLast?_eq_some_iff.mp ends
      rw [feed, dropLast_concat, append_assoc]
      exact .crlf (fun member => whole (mem_append_left _ member)) (ih not_mem_nil)
    · rw [feed]
      exact .lf whole ends (ih not_mem_nil)
    · have onward := ih (concat_whole whole feed)
      rwa [append_assoc] at onward

/-- Only the last line of a text depends on what follows it. -/
theorem splitLinesFrom_append (text after : Text) : ∃ lines last, 0x0A ∉ last ∧
    splitLinesFrom current text = lines ++ [last] ∧
    splitLinesFrom current (text ++ after) = lines ++ splitLinesFrom last after := by
  induction text generalizing current with
  | nil => exact ⟨[], current, whole, rfl, rfl⟩
  | cons unit rest ih =>
    rw [cons_append, splitLinesFrom, splitLinesFrom]
    by_cases feed : unit = 0x0A
    · obtain ⟨lines, last, free, same, both⟩ := ih not_mem_nil
      rw [if_pos feed, if_pos feed]
      exact ⟨_ :: lines, last, free, by rw [same, cons_append], by rw [both, cons_append]⟩
    · rw [if_neg feed, if_neg feed]
      exact ih (concat_whole whole feed)

private theorem splitLinesFrom_whole (start rest : Text) :
    splitLinesFrom start (current ++ rest) = splitLinesFrom (start ++ current) rest := by
  induction current generalizing start with
  | nil => rw [nil_append, append_nil]
  | cons unit current ih =>
    obtain ⟨first, others⟩ := not_or.mp (mt mem_cons.mpr whole)
    rw [cons_append, splitLinesFrom, if_neg (Ne.symm first), ih others, append_assoc]
    rfl

private theorem attachLineReader_lines (chunks : List Text) : ∃ lines last,
    splitLinesFrom current chunks.flatten = lines ++ [last] ∧
    attachLineReader current chunks = lines ++ if last = [] then [] else [last] := by
  induction chunks generalizing current with
  | nil => exact ⟨[], current, rfl, rfl⟩
  | cons chunk chunks ih =>
    obtain ⟨first, pending, free, same, both⟩ := splitLinesFrom_append whole chunk chunks.flatten
    obtain ⟨lines, last, split, called⟩ := ih free
    refine ⟨first ++ lines, last, ?_, ?_⟩
    · rw [flatten_cons, both, split, append_assoc]
    · rw [attachLineReader, splitLines, splitLinesFrom_whole whole, nil_append, same, dropLast_concat,
        getLast?_concat, Option.getD_some, called, append_assoc]

end Lines

/-- The lines of a text do not depend on the chunks in which it arrives. -/
theorem chunks_give_lines (chunks : List Text) : ∃ lines last, Lines chunks.flatten (lines ++ [last]) ∧
    attachLineReader [] chunks = lines ++ if last = [] then [] else [last] := by
  obtain ⟨lines, last, split, called⟩ := attachLineReader_lines (not_mem_nil (a := 0x0A)) chunks
  exact ⟨lines, last, split ▸ splitLinesFrom_lines not_mem_nil chunks.flatten, called⟩

section Objects

/-- The inside of a string. -/
inductive Chars : Text → Prop where
  | nil : Chars []
  | plain {unit : UInt16} {rest : Text} (quote : unit ≠ 0x22) (backslash : unit ≠ 0x5C) (after : Chars rest) :
      Chars (unit :: rest)
  | escape {rest : Text} (unit : UInt16) (after : Chars rest) : Chars (0x5C :: unit :: rest)

def Blank (text : Text) : Prop := ∀ unit ∈ text, isSpace unit

inductive Part where
  | value
  | items
  | members

/-- The grammar of JSON, less strict about words and numbers, blanks, escape sequences and commas. -/
inductive Json : Part → Text → Prop where
  | scalar {text : Text} (word : ∀ unit ∈ text, isWordUnit unit ∨ unit ∈ lit "+-.") : Json .value text
  | string {text : Text} (chars : Chars text) : Json .value (0x22 :: text ++ [0x22])
  | array {text : Text} (inside : Json .items text) : Json .value (0x5B :: text ++ [0x5D])
  | object {text : Text} (inside : Json .members text) : Json .value (0x7B :: text ++ [0x7D])
  | none {part : Part} {text : Text} (blank : Blank text) : Json part text
  | item {before text after : Text} (left : Blank before) (value : Json .value text) (right : Blank after) :
      Json .items (before ++ text ++ after)
  | member {name text : Text} {before after : Text} (left : Blank before) (key : Chars name) (right : Blank after)
      (value : Json .items text) : Json .members (before ++ (0x22 :: name ++ [0x22]) ++ after ++ 0x3A :: text)
  | more {part : Part} {first rest : Text} (left : Json part first) (right : Json part rest) :
      Json part (first ++ 0x2C :: rest)

/-- The matcher comes through a text inside an object at the depth at which it entered it. -/
def Passes (text : Text) : Prop := ∀ depth rest,
  objectEnd (depth + 1) false false (text ++ rest) = (objectEnd (depth + 1) false false rest).map (text ++ ·)

theorem Passes.append {first second : Text} (left : Passes first) (right : Passes second) :
    Passes (first ++ second) := by
  intro depth rest
  simp only [append_assoc, left depth, right depth, Option.map_map]
  rfl

private theorem passes_unit {unit : UInt16} (plain : unit ≠ 0x22 ∧ unit ≠ 0x7B ∧ unit ≠ 0x7D) : Passes [unit] := by
  intro depth rest
  rw [singleton_append, objectEnd, if_neg plain.1, if_neg plain.2.1, if_neg plain.2.2]
  rfl

private theorem passes_units {text : Text} (plain : ∀ unit ∈ text, unit ≠ 0x22 ∧ unit ≠ 0x7B ∧ unit ≠ 0x7D) :
    Passes text := by
  induction text with
  | nil =>
    intro depth rest
    simp
  | cons unit text ih =>
    obtain ⟨first, others⟩ := forall_mem_cons.mp plain
    exact (passes_unit first).append (ih others)

private theorem passes_string {text : Text} (chars : Chars text) : Passes (0x22 :: text ++ [0x22]) := by
  have inside : ∀ depth rest, objectEnd depth true false (text ++ 0x22 :: rest) =
      (objectEnd depth false false rest).map (text ++ 0x22 :: ·) := by
    intro depth rest
    induction chars with
    | nil => rfl
    | plain quote backslash after ih =>
      rw [cons_append, objectEnd]
      simp only [if_neg backslash, if_neg quote, Bool.false_eq_true, if_false, ih, Option.map_map]
      rfl
    | escape unit after ih =>
      rw [cons_append, cons_append, objectEnd]
      simp only [Bool.false_eq_true, if_false, if_true, objectEnd, ih, Option.map_map]
      rfl
  intro depth rest
  rw [append_assoc, cons_append, objectEnd, if_pos rfl, singleton_append, inside, Option.map_map]
  simp only [append_assoc, cons_append, nil_append]
  rfl

private theorem passes_object {text : Text} (inside : Passes text) : Passes (0x7B :: text ++ [0x7D]) := by
  intro depth rest
  simp only [cons_append, append_assoc, nil_append]
  rw [objectEnd, if_neg (by decide), if_pos rfl, inside (depth + 1), objectEnd, if_neg (by decide), if_neg (by decide),
    if_pos rfl, if_neg (by omega), Option.map_map, Option.map_map]
  rfl

theorem Blank.passes {text : Text} (blank : Blank text) : Passes text := by
  refine passes_units fun unit member => ?_
  have space := blank unit member
  refine ⟨?_, ?_, ?_⟩ <;> rintro rfl <;> exact absurd space (by decide)

theorem Json.passes {part : Part} {text : Text} (json : Json part text) : Passes text := by
  induction json with
  | scalar word =>
    refine passes_units fun unit member => ?_
    have known := word unit member
    refine ⟨?_, ?_, ?_⟩ <;> rintro rfl <;> exact absurd known (by decide)
  | string chars => exact passes_string chars
  | array _ ih => exact ((passes_unit (by decide)).append ih).append (passes_unit (by decide))
  | object _ ih => exact passes_object ih
  | none blank => exact blank.passes
  | item left _ right ih => exact (left.passes.append ih).append right.passes
  | member left key right _ ih =>
    exact ((left.passes.append (passes_string key)).append right.passes).append ((passes_unit (by decide)).append ih)
  | more _ _ left right => exact left.append ((passes_unit (by decide)).append right)

/-- The first object behind an offset is returned as it stands there. -/
theorem object_is_extracted {members gap : Text} (json : Json .members members) (free : 0x7B ∉ gap)
    (before trailing : Text) :
    extractPanelJson (before ++ (gap ++ (0x7B :: members ++ [0x7D]) ++ trailing)) before.length =
      0x7B :: members ++ [0x7D] := by
  have found : objectEnd 0 false false (0x7B :: (members ++ 0x7D :: trailing)) =
      some (0x7B :: members ++ [0x7D]) := by
    rw [objectEnd, if_neg (by decide), if_pos rfl, json.passes 0]
    rfl
  have start : (gap ++ 0x7B :: (members ++ 0x7D :: trailing)).dropWhile (· ≠ 0x7B) =
      0x7B :: (members ++ 0x7D :: trailing) := by
    rw [dropWhile_append_of_pos fun unit member => by simpa using ne_of_mem_of_not_mem member free]
    rfl
  simp only [extractPanelJson, drop_left, append_assoc, cons_append, nil_append, start, reduceCtorEq, if_false, found,
    Option.getD_some]

/-- An object with a brace in a string. -/
theorem object_is_extracted_demo :
    extractPanelJson (lit "@panel: \x7b\"a\":\"\x7d\"\x7d worker=0") 7 = lit "\x7b\"a\":\"\x7d\"\x7d" := by
  have blank : Blank [] := by simp [Blank]
  have json : Json .members
      ([] ++ (0x22 :: [0x61] ++ [0x22]) ++ [] ++ 0x3A :: ([] ++ (0x22 :: [0x7D] ++ [0x22]) ++ [])) :=
    .member blank (.plain (by decide) (by decide) .nil) blank
      (.item blank (.string (.plain (by decide) (by decide) .nil)) blank)
  exact object_is_extracted json (show 0x7B ∉ lit " " by decide) (lit "@panel:") (lit " worker=0")

end Objects

end MineRider.Soundness.PanelLines
