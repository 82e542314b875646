import SeriesQuery.Resample.Align
import SeriesQuery.Resample.GapFill
import SeriesQuery.Rowset.Columns
import SeriesQuery.Rowset.Derivation

/-!
# Filters

The stages that a query can put behind a source: each takes a rowset and gives another one, or
refuses it.
-/

namespace SeriesQuery

inductive Filter where
  | window (range : TimeRange)
  | align (grid : Grid)
  | gapFill (fill : GapFill)
  | delta
  | rate
  | counterDelta (maximum : Option Value)
  | project (columns : List Column)
  | keepWhere (predicate : Expr)
  | override (target : String) (change : Override)

namespace Filter

def apply : Filter → Rowset → Except QueryError Rowset
  | .window range, input => .ok (input.window range)
  | .align grid, input => input.align grid
  | .gapFill fill, input => input.gapFill fill
  | .delta, input => input.delta
  | .rate, input => input.rate
  | .counterDelta maximum, input => input.counterDelta maximum
  | .project columns, input => input.project columns
  | .keepWhere predicate, input => input.keepWhere predicate
  | .override target change, input => input.override target change

def boundText : Option Instant → String
  | some t => "Some(" ++ t.inDocument ++ ")"
  | none => "None"

def name : Filter → String
  | .window range => "window(" ++ boundText range.start ++ ".." ++ boundText range.stop ++ ")"
  | .align grid => "align(" ++ grid.name ++ ")"
  | .gapFill fill => "gap_fill(" ++ fill.mode.name ++ ", " ++ fill.grid.name ++ ")"
  | .delta => "delta"
  | .rate => "rate"
  | .counterDelta none => "counter_delta"
  | .counterDelta (some maximum) => "counter_delta(max=" ++ maximum.text ++ ")"
  | .project columns => s!"project({columns.length} columns)"
  | .keepWhere _ => "where"
  | .override target _ => "override_metadata(" ++ target ++ ")"

def applyStaged (filter : Filter) (input : Rowset) : Except QueryError Rowset :=
  QueryError.within filter.name (filter.apply input)

def applyAll : List Filter → Rowset → Except QueryError Rowset
  | [], input => .ok input
  | filter :: rest, input => do applyAll rest (← filter.applyStaged input)

end Filter

end SeriesQuery
