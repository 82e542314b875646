import SeriesQuery.Resample.Interpolation
import SeriesQuery.Rowset.Basic
import SeriesQuery.Time.Period

/-!
# Filled gaps

Between two successive samples of a series every boundary of a grid gets a sample of its own. The
samples of the series are kept as they are. A gap with more boundaries than the limit is an error
once the limit is used up, and so is a grid that does not go forward.
-/

namespace SeriesQuery

inductive FillMode where
  /-- On the straight line between the samples around the gap. -/
  | linear
  /-- From the sample before the gap. -/
  | forwardFill
deriving DecidableEq, Repr

def FillMode.name : FillMode → String
  | .linear => "Linear"
  | .forwardFill => "ForwardFill"

structure GapFill where
  grid : Grid
  mode : FillMode
  /-- The most samples that one gap may get. -/
  limit : Nat

def GapFill.defaultLimit : Nat := 1000000

namespace GapFill

def fillSample (mode : FillMode) (type : DataType) (before after : Sample Row)
    (boundary : Instant) : Except EvalError (Sample Row) :=
  match mode with
  | .forwardFill => .ok ⟨boundary, [Row.first before.value]⟩
  | .linear => (interpolate type before.scalar after.scalar boundary).map
      fun value => ⟨boundary, [value]⟩

def failed (stage : String) (error : EvalError) : Pull (Sample Row) :=
  .failed (.eval (.context stage error))

/-- Answers the boundaries from one on that lie before the sample after the gap, `budget` of them
at most, and then goes on with that sample. -/
def fillFrom (fill : GapFill) (type : DataType) (stage : String) (before after : Sample Row)
    (continued : Pull (Sample Row)) : (budget : Nat) → Instant → Pull (Sample Row)
  | 0, boundary =>
    if boundary < after.timestamp then
      failed stage (.gapTooLarge before.timestamp after.timestamp fill.limit)
    else continued
  | budget + 1, boundary =>
    if boundary < after.timestamp then
      match fillSample fill.mode type before after boundary with
      | .error e => failed stage e
      | .ok sample =>
        match fill.grid.next boundary with
        | none => .failed .outOfCalendar
        | some next =>
          if next ≤ boundary then failed stage (.nonAdvancingPeriod boundary)
          else .item (.ok sample) fun _ =>
            fillFrom fill type stage before after continued budget next
    else continued

def run (fill : GapFill) (type : DataType) (stage : String) :
    Option (Sample Row) → Pull (Sample Row) → Pull (Sample Row)
  | _, .stop => .stop
  | _, .item (.error e) _ => .failed e
  | before, .item (.ok sample) next =>
    let continued : Pull (Sample Row) := .item (.ok sample) fun cancelled =>
      run fill type stage (some sample) (next cancelled)
    match before with
    | none => continued
    | some before =>
      match fill.grid.next before.timestamp with
      | none => .failed .outOfCalendar
      | some boundary =>
        if boundary ≤ before.timestamp then
          failed stage (.nonAdvancingPeriod before.timestamp)
        else fillFrom fill type stage before sample continued fill.limit boundary

end GapFill

namespace Rowset

/-- A series with its gaps filled. It has one field, a numeric one if the gaps are filled on
lines. -/
def gapFill (fill : GapFill) (rowset : Rowset) : Except QueryError Rowset := do
  let field ← QueryError.compiling (rowset.singleField "gap fill")
  if fill.mode = .linear ∧ !field.dataType.isNumeric then
    throw (.compile (.unsupportedDataType "linear gap fill" field.dataType))
  let stage := "gap_fill(" ++ field.urn ++ ")"
  return {
    fields := [field]
    rows := Stream.guard fun cancelled =>
      fill.run field.dataType stage none (rowset.rows cancelled) }

end Rowset

end SeriesQuery
