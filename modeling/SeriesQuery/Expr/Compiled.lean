import SeriesQuery.Expr.Basic

/-!
# Compiled expressions

Compiling an expression against the input fields checks its types and gives the field of its
result and a function of a row. There is one builder for each kind of node; it takes compiled
operands, so compiling a tree is a fold of the builders over it.
-/

namespace SeriesQuery

structure Compiled where
  field : Field
  eval : Row → Except EvalError Value

namespace Compiled

/-- A value that fits the field, an integer also in a decimal field. -/
def constant (field : Field) (value : Value) : Except CompileError Compiled := do
  if value.isNull && field.required then throw (.nullRequiredConstant field.urn)
  let widened := match field.dataType, value with
    | .decimal, .integer i => Value.decimal (Float.ofInt i.toInt)
    | _, value => value
  if !widened.isNull && widened.dataType? != some field.dataType then
    throw (.typeMismatch field.dataType (.constant widened))
  return ⟨field, fun _ => .ok widened⟩

/-- The value of a field; a row of another width than the fields is refused. -/
def reference (fields : List Field) (urn : String) : Except CompileError Compiled := do
  let index ← Field.indexOf fields urn
  match fields[index]? with
  | none => throw (.fieldNotFound urn)
  | some field =>
    return ⟨field, fun row =>
      if row.length = fields.length then .ok (row[index]?.getD .null)
      else .error (.context field.urn (.rowWidthMismatch 0 fields.length row.length))⟩

def cast (source : Compiled) (target : DataType) : Except CompileError Compiled := do
  let urn := source.field.urn
  let conversion ← CompileError.within ("cast of '" ++ urn ++ "'")
    (Cast.between source.field.dataType target)
  let stage := "cast(" ++ urn ++ " as " ++ target.text ++ ")"
  return ⟨source.field.retype target source.field.required, fun row => do
    match ← source.eval row with
    | .null => return .null
    | value => EvalError.within stage (conversion.run value)⟩

def sameType (left right : Compiled) : Except CompileError DataType :=
  if left.field.dataType = right.field.dataType then .ok left.field.dataType
  else .error (.operandTypeMismatch left.field.dataType right.field.dataType)

def binaryUrn (left : Compiled) (symbol : String) (right : Compiled) : String :=
  "(" ++ left.field.urn ++ " " ++ symbol ++ " " ++ right.field.urn ++ ")"

/-- A comparison with null does not hold. -/
def condition (op : Comparison) (left right : Compiled) : Except CompileError Compiled := do
  let urn := binaryUrn left op.symbol right
  let type ← CompileError.within urn (sameType left right)
  CompileError.within urn (op.check type)
  let required := left.field.required && right.field.required
  return ⟨.plain urn .boolean required, fun row => do
    let a ← left.eval row
    let b ← right.eval row
    if a.isNull || b.isNull then return .boolean false
    return .boolean (← EvalError.within urn (op.evaluate a b))⟩

def requireBoolean (operand : Compiled) : Except CompileError Unit :=
  if operand.field.dataType ≠ .boolean then
    .error (.operandNotBoolean operand.field.urn operand.field.dataType)
  else if operand.field.required then .ok ()
  else .error (.operandNotRequired operand.field.urn)

def truth (stage : String) (value : Value) : Except EvalError Bool :=
  match value.asBoolean? with
  | some b => .ok b
  | none => .error (.context stage (DataType.boolean.mismatch value))

/-- The right operand is evaluated only where the left one does not decide. -/
def logical (op : LogicalOp) (left right : Compiled) : Except CompileError Compiled := do
  let urn := binaryUrn left op.symbol right
  CompileError.within urn (requireBoolean left)
  CompileError.within urn (requireBoolean right)
  return ⟨.plain urn .boolean true, fun row => do
    let a ← truth urn (← left.eval row)
    match op, a with
    | .and, false => return .boolean false
    | .or, true => return .boolean true
    | _, _ => return .boolean (← truth urn (← right.eval row))⟩

def numeric (op : NumericOp) (left right : Compiled) : Except CompileError Compiled := do
  let urn := binaryUrn left op.symbol right
  let type ← CompileError.within urn (sameType left right)
  CompileError.within urn (op.check type)
  let field : Field := {
    urn
    dataType := type
    required := left.field.required && right.field.required
    unit := Field.commonUnit [left.field, right.field]
    metadata := left.field.metadata.merge right.field.metadata }
  return ⟨field, fun row => do
    let a ← left.eval row
    let b ← right.eval row
    if a.isNull || b.isNull then return .null
    EvalError.within urn (op.evaluate a b)⟩

def unary (op : UnaryOp) (operand : Compiled) : Except CompileError Compiled := do
  let urn := op.name ++ "(" ++ operand.field.urn ++ ")"
  CompileError.within urn (op.check operand.field.dataType)
  return ⟨{ operand.field with urn }, fun row => do
    match ← operand.eval row with
    | .null => return .null
    | value => EvalError.within urn (op.evaluate value)⟩

/-- A source that cannot be null stands for itself: its alternative is checked and dropped. -/
def nvl (source alternative : Compiled) : Except CompileError Compiled := do
  let urn := "nvl(" ++ source.field.urn ++ ", " ++ alternative.field.urn ++ ")"
  if !alternative.field.required then
    throw (.context urn (.operandNotRequired alternative.field.urn))
  let type ← CompileError.within urn (sameType source alternative)
  if source.field.required then return source
  return ⟨source.field.retype type true, fun row => do
    match ← source.eval row with
    | .null => alternative.eval row
    | value => return value⟩

def difference (a b : Field) : Option BranchAspect :=
  if a.dataType ≠ b.dataType then some .dataType
  else if a.unit ≠ b.unit then some .unit
  else if a.required ≠ b.required then some .required
  else none

/-- Only the selected branch is evaluated. -/
def selector (selector whenTrue whenFalse : Compiled) : Except CompileError Compiled := do
  let urn := "(" ++ selector.field.urn ++ " ? " ++ whenTrue.field.urn ++ " : " ++
    whenFalse.field.urn ++ ")"
  CompileError.within urn (requireBoolean selector)
  if let some aspect := difference whenTrue.field whenFalse.field then
    throw (.context urn (.branchMismatch aspect))
  let field : Field := { whenTrue.field with
    urn
    metadata := whenTrue.field.metadata.merge whenFalse.field.metadata }
  return ⟨field, fun row => do
    if ← truth urn (← selector.eval row) then whenTrue.eval row else whenFalse.eval row⟩

end Compiled

/-- Compiles an expression against the input fields, operands from left to right. -/
def Expr.compile (fields : List Field) : Expr → Except CompileError Compiled
  | .constant field value => Compiled.constant field value
  | .reference urn => Compiled.reference fields urn
  | .cast source target => do
    let source ← CompileError.within "cast source" (source.compile fields)
    Compiled.cast source target
  | .condition op left right => do
    let left ← CompileError.within ("left operand of " ++ op.symbol) (left.compile fields)
    let right ← CompileError.within ("right operand of " ++ op.symbol) (right.compile fields)
    Compiled.condition op left right
  | .logical op left right => do
    let left ← CompileError.within ("left operand of " ++ op.symbol) (left.compile fields)
    let right ← CompileError.within ("right operand of " ++ op.symbol) (right.compile fields)
    Compiled.logical op left right
  | .numeric op left right => do
    let left ← CompileError.within ("left operand of " ++ op.symbol) (left.compile fields)
    let right ← CompileError.within ("right operand of " ++ op.symbol) (right.compile fields)
    Compiled.numeric op left right
  | .unary op operand => do
    let operand ← CompileError.within ("operand of " ++ op.name) (operand.compile fields)
    Compiled.unary op operand
  | .nvl source alternative => do
    let source ← CompileError.within "nvl source" (source.compile fields)
    let alternative ← CompileError.within "nvl alternative" (alternative.compile fields)
    Compiled.nvl source alternative
  | .selector choice whenTrue whenFalse => do
    let choice ← CompileError.within "selector" (choice.compile fields)
    let whenTrue ← CompileError.within "true branch" (whenTrue.compile fields)
    let whenFalse ← CompileError.within "false branch" (whenFalse.compile fields)
    Compiled.selector choice whenTrue whenFalse

end SeriesQuery
