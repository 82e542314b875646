import SeriesQuery.Filter
import SeriesQuery.Reduction.Accumulator
import SeriesQuery.Store.Series
import SeriesQuery.Stream.Merge

/-!
# Sources

The tree of a query: where its rows come from, and the filters that they pass.
-/

namespace SeriesQuery

inductive Source where
  | rows (fields : List Field) (samples : List (Sample Row))
  | series (series : Series) (window : TimeRange)
  /-- Anything that gives a rowset for a time range. Nothing is promised of its stream. -/
  | external (run : TimeRange → Except QueryError Rowset)
  | join (kind : JoinKind) (inputs : List Source)
  /-- The values of several series on one grid, folded into one. The template names the result;
  the fallback stands for the result of no inputs. -/
  | reduce (reduction : Reduction) (grid : Grid) (template : Field) (inputs : List Source)
      (fallback : Option Expr)
  | pipeline (source : Source) (filters : List Filter)

end SeriesQuery
