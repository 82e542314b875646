import SeriesQuery.Rowset.Basic
import SeriesQuery.Stream.Merge

/-!
# Joined rowsets

The rows of several rowsets side by side, one row for each timestamp that the join answers. Where
an input has no row, each of its fields is null.
-/

namespace SeriesQuery

/-- The joined values of several streams, each row of slots combined into one value. -/
def joinStreams {α β : Type} (kind : JoinKind) (streams : List (Stream (Sample α)))
    (combine : Slots α → Except EvalError β) : Stream (Sample β) :=
  Stream.guard <| (Merge.ofStreams kind streams).stream.filterMap fun row =>
    some <| QueryError.evaluating do
      return ⟨row.timestamp, ← EvalError.within "join" (combine row.value)⟩

namespace Rowset

/-- The values of the slots in turn, the first of them that of an input with the given index. A
row must have the width of its input. -/
def flatten : Nat → List Nat → Slots Row → Except EvalError Row
  | input, width :: widths, slot :: slots => do
    let values ← match slot with
      | none => pure (List.replicate width Value.null)
      | some row =>
        if row.length = width then pure row
        else throw (.rowWidthMismatch input width row.length)
    return values ++ (← flatten (input + 1) widths slots)
  | _, _, _ => .ok []

/-- The fields of the inputs in turn, optional where rows can lack the input. -/
def joinedFields (kind : JoinKind) : Nat → List Rowset → List Field
  | _, [] => []
  | index, input :: rest =>
    let fields :=
      if kind.isOptional index then input.fields.map fun field => field.retype field.dataType false
      else input.fields
    fields ++ joinedFields kind (index + 1) rest

def join (kind : JoinKind) (inputs : List Rowset) : Except QueryError Rowset := do
  let fields := joinedFields kind 0 inputs
  QueryError.compiling (Field.validate fields)
  let widths := inputs.map (·.fields.length)
  return ⟨fields, joinStreams kind (inputs.map (·.rows)) (flatten 0 widths)⟩

end Rowset

end SeriesQuery
