import SeriesQuery.Source.Basic
import SeriesQuery.Source.Reduce

/-!
# Execution

Executing a source for a time range gives its rowset or refuses the query. Windows that directly
follow a series narrow the scan of the series and are not applied as filters.
-/

namespace SeriesQuery

def Row.conform (fields : List Field) (sample : Sample Row) :
    Except EvalError (Sample Row) := do
  if sample.value.length ≠ fields.length then
    throw (.rowWidthMismatch 0 fields.length sample.value.length)
  (sample.value.zip fields).forM fun entry =>
    EvalError.within entry.2.urn (entry.2.check entry.1)
  return sample

namespace Rowset

def ofRows (fields : List Field) (samples : List (Sample Row)) (range : TimeRange) :
    Except QueryError Rowset := do
  QueryError.compiling (Field.validate fields)
  let inRange := samples.filter fun sample => range.contains sample.timestamp
  return ⟨fields, Stream.guard <| Stream.ofAnswers <|
    inRange.map fun sample => QueryError.evaluating (Row.conform fields sample)⟩

def ofSeries (series : Series) (range : TimeRange) : Rowset :=
  ⟨[series.field], Stream.guard <| Stream.ofAnswers <|
    (series.scan range).map fun sample => .ok ⟨sample.timestamp, [sample.value]⟩⟩

end Rowset

namespace Source

/-- The series and the window of a source that only scans a series. -/
def scan? : Source → Option (Series × TimeRange)
  | .series scanned window => some (scanned, window)
  | .pipeline source [] => source.scan?
  | _ => none

/-- The windows at the head of a list of filters narrow a window; the other filters are left. -/
def absorb : TimeRange → List Filter → TimeRange × List Filter
  | window, .window range :: rest => absorb (window.intersect range) rest
  | window, filters => (window, filters)

mutual

def execute (range : TimeRange) : Source → Except QueryError Rowset
  | .rows fields samples => Rowset.ofRows fields samples range
  | .series scanned window => .ok (Rowset.ofSeries scanned (range.intersect window))
  | .external run => run range
  | .join kind inputs => do
    if inputs.isEmpty then throw (.compile (.invalidConfig .joinWithoutInputs))
    Rowset.join kind (← (executeAll range inputs).mapM id)
  | .reduce reduction grid template inputs fallback =>
    Rowset.reduce reduction grid template fallback (executeAll range inputs)
  | .pipeline source filters =>
    match source.scan? with
    | some (scanned, window) =>
      let (window, rest) := absorb window filters
      Filter.applyAll rest (Rowset.ofSeries scanned (range.intersect window))
    | none => do Filter.applyAll filters (← source.execute range)

def executeAll (range : TimeRange) : List Source → List (Except QueryError Rowset)
  | [] => []
  | source :: rest => source.execute range :: executeAll range rest

end

end Source

end SeriesQuery
