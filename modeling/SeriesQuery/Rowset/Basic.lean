import SeriesQuery.Field.Basic
import SeriesQuery.Stream.Basic
import SeriesQuery.Time.Range

/-!
# Rowsets

The result of a query: its fields, and the stream of rows that match them.
-/

namespace SeriesQuery

structure Rowset where
  fields : List Field
  rows : Stream (Sample Row)

structure SingleRowset where
  field : Field
  rows : Stream (Sample Row)

def SingleRowset.toRowset (single : SingleRowset) : Rowset := ⟨[single.field], single.rows⟩

def Sample.scalar (sample : Sample Row) : Sample Value :=
  ⟨sample.timestamp, Row.first sample.value⟩

namespace Rowset

def singleField (rowset : Rowset) (stage : String) : Except CompileError Field :=
  match rowset.fields with
  | [field] => .ok field
  | fields => .error (.expectedSingleField stage fields.length)

def window (range : TimeRange) (rowset : Rowset) : Rowset where
  fields := rowset.fields
  rows := Stream.guard <| rowset.rows.filterMap fun sample =>
    if range.contains sample.timestamp then some (.ok sample) else none

end Rowset

end SeriesQuery
