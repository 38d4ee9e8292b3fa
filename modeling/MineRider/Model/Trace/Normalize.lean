import Mathlib.Data.List.AList
import MineRider.Model.Minecraft.Text

/-! # Trace normalization

A trace is a list of captured packets. Normalization replaces session-specific values by symbols that
are numbered, kind by kind, in the order in which the values first occur, and drops absolute times and
raw payloads. The entries of a JSON object come in the order in which the map is iterated. How
`serde_json` prints a value that is not a string is a parameter.
-/

namespace MineRider.Model.Trace

open Minecraft

section Format

inductive Direction where
  | clientbound
  | serverbound
deriving DecidableEq, Repr

/-- One captured packet; floats are bit patterns. -/
structure TraceEvent where
  tsMonoMs : UInt64
  tsRelMs : UInt64
  tick : UInt64
  dir : Direction
  state : String
  id : Int32
  name : String
  fields : Option Json
  payloadHex : String
  encrypted : Bool
  compressed : Bool
  size : ℕ
  session : String
  scenario : String
  step : UInt32

end Format

section Symbols

inductive SymbolKind where
  | uuid
  | teleportId
  | keepaliveId
  | entityId
  | timestamp
  | salt
  | serverHost
  | serverPort
  | sequence
  | chunksPerTick
  | session
deriving DecidableEq, Repr

def SymbolKind.text : SymbolKind → String
  | .uuid => "UUID"
  | .teleportId => "TELEPORT_ID"
  | .keepaliveId => "KEEPALIVE_ID"
  | .entityId => "ENTITY_ID"
  | .timestamp => "TIMESTAMP"
  | .salt => "SALT"
  | .serverHost => "SERVER_HOST"
  | .serverPort => "SERVER_PORT"
  | .sequence => "SEQUENCE"
  | .chunksPerTick => "CHUNKS_PER_TICK"
  | .session => "SESSION"

/-- `format!("{kind}_{counter}")` -/
def symbolText (kind : SymbolKind) (counter : ℕ) : String := kind.text ++ "_" ++ toString counter

structure SymbolTable where
  maps : AList fun _ : SymbolKind => AList fun _ : String => String
  counters : AList fun _ : SymbolKind => ℕ

def SymbolTable.new : SymbolTable := ⟨∅, ∅⟩

variable (render : Json → String)

/-- A string stands for itself, anything else for what `to_string` prints. -/
def keyText : Json → String
  | .string text => text
  | other => render other

def SymbolTable.symbol (table : SymbolTable) (kind : SymbolKind) (raw : Json) : String × SymbolTable :=
  let key := keyText render raw
  let map := (table.maps.lookup kind).getD ∅
  match map.lookup key with
  | some sym => (sym, { table with maps := table.maps.insert kind map })
  | none =>
    let counter := (table.counters.lookup kind).getD 0 + 1
    let sym := symbolText kind counter
    (sym, ⟨table.maps.insert kind (map.insert key sym), table.counters.insert kind counter⟩)

def contains (text part : List Char) : Bool := text.tails.any fun rest => part.isPrefixOf rest

/-- Classifies a field key, whatever its case. -/
def symbolKind (key : String) : Option SymbolKind :=
  let key := key.toList.map Char.toLower
  if contains key "uuid".toList then some .uuid
  else if key = "teleport_id".toList then some .teleportId
  else if key = "keep_alive_id".toList then some .keepaliveId
  else if key = "entity_id".toList ∨ key = "player_id".toList ∨ "_entity_id".toList.isSuffixOf key then some .entityId
  else if contains key "timestamp".toList then some .timestamp
  else if key = "salt".toList then some .salt
  else if key = "server_host".toList ∨ key = "server_address".toList then some .serverHost
  else if key = "server_port".toList then some .serverPort
  else if key = "sequence".toList ∨ key = "sequence_number".toList then some .sequence
  else if key = "chunks_per_tick".toList then some .chunksPerTick
  else none

end Symbols

section Normalize

variable (render : Json → String)

mutual

def normalizeValue : Json → SymbolTable → Json × SymbolTable
  | .object entries, symbols =>
    let (entries, symbols) := normalizeEntries entries symbols
    (.object entries, symbols)
  | .array items, symbols =>
    let (items, symbols) := normalizeItems items symbols
    (.array items, symbols)
  | other, symbols => (other, symbols)

def normalizeEntries : List (String × Json) → SymbolTable → List (String × Json) × SymbolTable
  | [], symbols => ([], symbols)
  | (key, child) :: rest, symbols =>
    let (child, symbols) :=
      match symbolKind key with
      | some kind =>
        let (sym, symbols) := symbols.symbol render kind child
        (Json.string sym, symbols)
      | none => normalizeValue child symbols
    let (rest, symbols) := normalizeEntries rest symbols
    ((key, child) :: rest, symbols)

def normalizeItems : List Json → SymbolTable → List Json × SymbolTable
  | [], symbols => ([], symbols)
  | item :: rest, symbols =>
    let (item, symbols) := normalizeValue item symbols
    let (rest, symbols) := normalizeItems rest symbols
    (item :: rest, symbols)

end

def normalizeFields : Option Json → SymbolTable → Option Json × SymbolTable
  | none, symbols => (none, symbols)
  | some fields, symbols =>
    let (fields, symbols) := normalizeValue render fields symbols
    (some fields, symbols)

def normalizeEvent (event : TraceEvent) (symbols : SymbolTable) : TraceEvent × SymbolTable :=
  let (session, symbols) := symbols.symbol render .session (.string event.session)
  let (fields, symbols) := normalizeFields render event.fields symbols
  ({ event with session, tsMonoMs := 0, payloadHex := "", fields }, symbols)

def normalizeEvents : List TraceEvent → SymbolTable → List TraceEvent
  | [], _ => []
  | event :: rest, symbols =>
    let (event, symbols) := normalizeEvent render event symbols
    event :: normalizeEvents rest symbols

def normalize (events : List TraceEvent) : List TraceEvent := normalizeEvents render events .new

end Normalize

end MineRider.Model.Trace
