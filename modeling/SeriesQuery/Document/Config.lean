import SeriesQuery.Config.Basic
import SeriesQuery.Document.Object
import SeriesQuery.Json.Reader

/-!
# Documents of configurations

A configuration is an object with known keys only; a missing key keeps the standard. As a part of
a document it is decoded like any other type. Read from a text of its own it is refused with a
cause: the entries are visited in the order of their keys, and its offset must be one.
-/

namespace SeriesQuery.EngineConfig

open SeriesQuery.Document

def offsetKey : String := "utc_offset_secs"
def limitKey : String := "max_gap_fill_points"
def filterKey : String := "log_filter"

def keys : List String := [offsetKey, limitKey, filterKey]

def encode (config : EngineConfig) : Json :=
  .object [(offsetKey, .integer config.utcOffset.toInt), (limitKey, .integer config.gapLimit.toNat),
    (filterKey, .string config.logFilter)]

def readNumber (setting : Setting) (low high : Int) (tree : Json) : Except ConfigFault Int :=
  match tree with
  | .integer n =>
    if low ≤ n ∧ n ≤ high then .ok n else .error (.numberOutOfBounds n setting)
  | tree => .error (.wrongType tree setting)

def readText (tree : Json) : Except ConfigFault String :=
  match tree with
  | .string text => .ok text
  | tree => .error (.wrongType tree .text)

def set (config : EngineConfig) (entry : String × Json) : Except ConfigFault EngineConfig :=
  if entry.1 = offsetKey then do
    let offset ← readNumber .offset lowestOffset highestOffset entry.2
    return { config with utcOffset := Int32.ofInt offset }
  else if entry.1 = limitKey then do
    let limit ← readNumber .count 0 highestLimit entry.2
    return { config with gapLimit := UInt64.ofInt limit }
  else if entry.1 = filterKey then do
    return { config with logFilter := ← readText entry.2 }
  else .error (.unknownKey entry.1 keys)

def ofEntries (entries : List (String × Json)) : Except ConfigFault EngineConfig :=
  entries.foldlM set standard

/-- Every key stands in the object once. -/
def decode (tree : Json) : Option EngineConfig := do
  let entries ← entries? tree
  if (entries.map (·.1)).Nodup then (ofEntries entries).toOption else none

def read (text : String) : Except CompileError EngineConfig :=
  match Json.read? text with
  | none => .error (.invalidConfig .malformedDocument)
  | some tree =>
    match tree.canonical with
    | .object entries =>
      match ofEntries entries with
      | .error fault => .error (.invalidConfig fault)
      | .ok config => do
        let _zone ← config.timeZone
        return config
    | _ => .error (.invalidConfig .documentNotObject)

end SeriesQuery.EngineConfig
