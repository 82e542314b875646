import SeriesQuery.Document.Scalar
import SeriesQuery.Document.Words
import SeriesQuery.Json.Skip
import SeriesQuery.Time.PeriodSpec
import SeriesQuery.Time.Range

/-!
# Documents of time

The JSON forms of time ranges and periods.
-/

namespace SeriesQuery

open SeriesQuery.Document

namespace TimeRange

def encodeBound : Option Instant → Json
  | some t => t.encode
  | none => .null

/-- A bound that is missing or null is unbounded. -/
def decodeBound : Option Json → Option (Option Instant)
  | none => some none
  | some .null => some none
  | some tree => (Instant.decode tree).map some

def encode (range : TimeRange) : Json :=
  .object [("from", encodeBound range.start), ("to", encodeBound range.stop)]

def keys : List String := ["from", "to"]

def decodeEntries (entries : List (String × Json)) : Option TimeRange := do
  let start ← decodeBound (← optional? entries "from")
  let stop ← decodeBound (← optional? entries "to")
  return ⟨start, stop⟩

def decode (tree : Json) : Option TimeRange := do
  decodeEntries (← entries? tree)

def read? (text : String) : Option TimeRange := do
  decodeEntries (← Json.readKnown? keys text)

end TimeRange

namespace PeriodSpec

def decodeOffset : Option Json → Option Int32
  | none => some 0
  | some tree => int32? tree

def encode : PeriodSpec → Json
  | .fixed seconds offset =>
    .object [("kind", .string "fixed"), ("width_secs", .integer seconds.toInt),
      ("utc_offset_secs", .integer offset.toInt)]
  | .calendar unit offset =>
    .object [("kind", .string "calendar"), ("unit", unit.encode),
      ("utc_offset_secs", .integer offset.toInt)]

def decode (tree : Json) : Option PeriodSpec := do
  let entries ← entries? tree
  let offset := do decodeOffset (← optional? entries "utc_offset_secs")
  match ← text? (← required? entries "kind") with
  | "fixed" =>
    let seconds ← int64? (← required? entries "width_secs")
    return .fixed seconds (← offset)
  | "calendar" =>
    let unit ← CalendarUnit.decode (← required? entries "unit")
    return .calendar unit (← offset)
  | _ => none

end PeriodSpec

end SeriesQuery
