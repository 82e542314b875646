import SeriesQuery.Resample.Interpolation
import SeriesQuery.Rowset.Basic
import SeriesQuery.Time.Period

/-!
# Alignment

An aligned series has one sample for each bucket of a grid in which the series has samples, at
the start of the bucket. The first bucket takes the value of its first sample; a later one takes
the sample at its start, and where there is none the value between the last sample before the
bucket and the first one in it.
-/

namespace SeriesQuery

structure Alignment where
  bucket : Option Instant
  previous : Option (Sample Row)

namespace Alignment

def initial : Alignment := ⟨none, none⟩

/-- The sample at the start of a bucket, from the last sample before the bucket and the first one
in it. -/
def bucketSample (type : DataType) (stage : String) (previous : Option (Sample Row))
    (start : Instant) (current : Sample Row) : Except EvalError (Sample Row) :=
  match previous with
  | none => .ok ⟨start, [Row.first current.value]⟩
  | some before =>
    if current.timestamp = start then .ok current
    else (EvalError.within stage (interpolate type before.scalar current.scalar start)).map
      fun value => ⟨start, [value]⟩

def step (grid : Grid) (type : DataType) (stage : String) (alignment : Alignment)
    (current : Sample Row) : Alignment × Option (Except QueryError (Sample Row)) :=
  match grid.align current.timestamp with
  | none => (alignment, some (.error .outOfCalendar))
  | some start =>
    if alignment.bucket = some start then (⟨some start, some current⟩, none)
    else (⟨some start, some current⟩,
      some (QueryError.evaluating (bucketSample type stage alignment.previous start current)))

end Alignment

namespace Rowset

/-- A series with one sample for each bucket that has samples. The series is one required numeric
field. -/
def alignSingle (grid : Grid) (rowset : Rowset) : Except QueryError SingleRowset := do
  let field ← QueryError.compiling (rowset.singleField "alignment")
  let stage := "align(" ++ field.urn ++ ")"
  if !field.dataType.isNumeric then
    throw (.compile (.context stage (.unsupportedDataType "alignment" field.dataType)))
  if !field.required then
    throw (.compile (.context stage (.operandNotRequired field.urn)))
  return {
    field
    rows := Stream.guard <|
      rowset.rows.transduce (Alignment.step grid field.dataType stage) .initial }

def align (grid : Grid) (rowset : Rowset) : Except QueryError Rowset :=
  (rowset.alignSingle grid).map SingleRowset.toRowset

end Rowset

end SeriesQuery
