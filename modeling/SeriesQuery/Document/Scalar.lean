import SeriesQuery.Document.Object
import SeriesQuery.Json.Skip
import SeriesQuery.Value.Basic

/-!
# Documents of values

The JSON forms of values and of samples. A value carries no mark of its type, so a timestamp is
read back as its text, and a decimal that is not finite as null.
-/

namespace SeriesQuery

open SeriesQuery.Document

namespace Instant

def encode (t : Instant) : Json := .string t.inDocument

def decode (tree : Json) : Option Instant := do
  readLoose? (← text? tree).toList

end Instant

namespace Value

def encode : Value → Json
  | .null => .null
  | .boolean b => .bool b
  | .integer i => .integer i.toInt
  | .decimal x => if x.isFinite then .decimal x else .null
  | .string text => .string text
  | .timestamp t => t.encode

/-- A scalar; a whole number that does not fit 64 bits is a decimal. -/
def decode : Json → Option Value
  | .null => some .null
  | .bool b => some (.boolean b)
  | .integer n =>
    match integer? n with
    | some i => some (.integer i)
    | none => some (.decimal (Float.ofInt n))
  | .decimal x => some (.decimal x)
  | .string text => some (.string text)
  | .array _ => none
  | .object _ => none

end Value

namespace Row

def encode (row : Row) : Json := .array (row.map Value.encode)

def decode : Json → Option Row
  | .array items => items.mapM Value.decode
  | _ => none

end Row

namespace Sample

def encode (sample : Sample Row) : Json :=
  .object [("timestamp", sample.timestamp.encode), ("value", Row.encode sample.value)]

def keys : List String := ["timestamp", "value"]

def decodeEntries (entries : List (String × Json)) : Option (Sample Row) := do
  let timestamp ← Instant.decode (← required? entries "timestamp")
  return ⟨timestamp, ← Row.decode (← required? entries "value")⟩

def decode (tree : Json) : Option (Sample Row) := do
  decodeEntries (← entries? tree)

def read? (text : String) : Option (Sample Row) := do
  decodeEntries (← Json.readKnown? keys text)

end Sample

end SeriesQuery
