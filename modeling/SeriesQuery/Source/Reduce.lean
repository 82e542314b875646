import SeriesQuery.Expr.Compiled
import SeriesQuery.Reduction.Accumulator
import SeriesQuery.Resample.Align
import SeriesQuery.Source.Join

/-!
# Reduced rowsets

Several series are aligned on one grid, and the values that they have at one bucket are folded
into one value. A bucket counts only if every series has samples in it.
-/

namespace SeriesQuery

def Reduction.fold (reduction : Reduction) (type : DataType) (stage : String)
    (slots : Slots Row) : Except EvalError Row := do
  let accumulator ← (slots.filterMap id).foldlM
    (fun accumulator row =>
      match row.head? with
      | some value => Accumulator.add accumulator value
      | none => throw (.rowWidthMismatch 0 1 0))
    (reduction.start type)
  return [← EvalError.within stage accumulator.result]

namespace Rowset

/-- Aligns the input with an index; why it cannot be aligned is told with its index and its first
URN. -/
def alignInput (grid : Grid) (index : Nat) (input : Rowset) : Except QueryError SingleRowset :=
  match input.alignSingle grid with
  | .error (.compile cause) =>
    let urn := (input.fields.head?.map (·.urn)).getD ""
    .error (.compile (.reductionInput index urn (.unalignable cause)))
  | result => result

def alignInputs (grid : Grid) :
    Nat → List (Except QueryError Rowset) → Except QueryError (List SingleRowset)
  | _, [] => .ok []
  | index, input :: rest => do
    let aligned ← alignInput grid index (← input)
    return aligned :: (← alignInputs grid (index + 1) rest)

/-- Refuses the first input with another type or with an optional field, the first of them with
the given index. -/
def checkInputs (type : DataType) : Nat → List SingleRowset → Except CompileError Unit
  | _, [] => .ok ()
  | index, input :: rest =>
    if input.field.dataType ≠ type then
      .error (.reductionInput index input.field.urn (.typeDiffers type input.field.dataType))
    else if !input.field.required then
      .error (.reductionInput index input.field.urn .notRequired)
    else checkInputs type (index + 1) rest

def reducedField (reduction : Reduction) (template : Field) (type : DataType)
    (inputs : List SingleRowset) : Field :=
  { template.retype (reduction.outputType type) true with
    unit := if reduction.keepsUnit then Field.commonUnit (inputs.map (·.field)) else none }

/-- The reduction of aligned inputs. One input alone passes as it is where the reduction allows
it. -/
def reduceAligned (reduction : Reduction) (template : Field) :
    List SingleRowset → Except QueryError Rowset
  | [] => .error (.compile .noDatasources)
  | first :: rest => do
    let type := first.field.dataType
    QueryError.compiling (checkInputs type 0 (first :: rest))
    let field := reducedField reduction template type (first :: rest)
    if rest.isEmpty && reduction.usesIdentity then return ⟨[field], first.rows⟩
    let stage := reduction.name ++ "(" ++ field.urn ++ ")"
    return ⟨[field], joinStreams .inner ((first :: rest).map (·.rows))
      (reduction.fold type stage)⟩

/-- The result of a reduction without inputs: the field of the fallback and no rows. -/
def reduceNothing (fallback : Option Expr) : Except QueryError Rowset := do
  match fallback with
  | none => throw (.compile .noDatasources)
  | some expr =>
    let compiled ← QueryError.compiling
      (CompileError.within "reduction fallback" (expr.compile []))
    return ⟨[compiled.field], Stream.empty⟩

def reduce (reduction : Reduction) (grid : Grid) (template : Field) (fallback : Option Expr)
    (inputs : List (Except QueryError Rowset)) : Except QueryError Rowset := do
  if inputs.isEmpty then reduceNothing fallback
  else reduceAligned reduction template (← alignInputs grid 0 inputs)

end Rowset

end SeriesQuery
