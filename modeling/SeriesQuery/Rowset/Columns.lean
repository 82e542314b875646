import SeriesQuery.Expr.Compiled
import SeriesQuery.Rowset.Basic

/-!
# Computed rows

Expressions over the rows of a rowset: a projection computes new rows, a predicate chooses among
the rows, and an override changes how a field is described.
-/

namespace SeriesQuery

/-- A column of a projection: an expression, and a URN if its own shall not be used. -/
structure Column where
  expr : Expr
  alias? : Option String

namespace Column

def compile (fields : List Field) (index : Nat) (column : Column) :
    Except CompileError Compiled := do
  let compiled ← CompileError.within s!"projection column {index}" (column.expr.compile fields)
  match column.alias? with
  | some urn => return ⟨{ compiled.field with urn }, compiled.eval⟩
  | none => return compiled

def compileAll (fields : List Field) : Nat → List Column → Except CompileError (List Compiled)
  | _, [] => .ok []
  | index, column :: rest => do
    let first ← column.compile fields index
    let others ← compileAll fields (index + 1) rest
    return first :: others

end Column

/-- The value of a column, which its field must admit. -/
def Compiled.evalChecked (compiled : Compiled) (row : Row) : Except EvalError Value := do
  let value ← compiled.eval row
  EvalError.within compiled.field.urn (compiled.field.check value)
  return value

/-- What an override changes of a field; metadata are merged. -/
structure Override where
  urn : Option String
  unit : Option (Option String)
  metadata : Meta

def Override.apply (change : Override) (field : Field) : Field :=
  { field with
    urn := change.urn.getD field.urn
    unit := change.unit.getD field.unit
    metadata := field.metadata.merge change.metadata }

namespace Rowset

def project (columns : List Column) (rowset : Rowset) : Except QueryError Rowset := do
  let compiled ← QueryError.compiling (Column.compileAll rowset.fields 0 columns)
  let fields := compiled.map (·.field)
  QueryError.compiling (Field.validate fields)
  return {
    fields
    rows := Stream.guard <| rowset.rows.filterMap fun sample =>
      some <| QueryError.evaluating do
        return ⟨sample.timestamp, ← compiled.mapM fun column => column.evalChecked sample.value⟩ }

def keepWhere (predicate : Expr) (rowset : Rowset) : Except QueryError Rowset := do
  let compiled ← QueryError.compiling <|
    CompileError.within "where predicate" (predicate.compile rowset.fields)
  if compiled.field.dataType ≠ .boolean then
    throw (.compile (.operandNotBoolean compiled.field.urn compiled.field.dataType))
  return {
    fields := rowset.fields
    rows := Stream.guard <| rowset.rows.filterMap fun sample =>
      match compiled.eval sample.value with
      | .ok value => if value.asBoolean? = some true then some (.ok sample) else none
      | .error e => some (.error (.eval e)) }

def override (target : String) (change : Override) (rowset : Rowset) :
    Except QueryError Rowset := do
  let index ← QueryError.compiling (Field.indexOf rowset.fields target)
  let fields := rowset.fields.modify index change.apply
  QueryError.compiling (Field.validate fields)
  return { rowset with fields }

end Rowset

end SeriesQuery
