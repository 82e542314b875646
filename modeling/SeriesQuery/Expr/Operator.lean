import SeriesQuery.Decimal.Remainder
import SeriesQuery.Value.Conversion

/-!
# Operators

The operators of expressions: for which types each is defined, and what it answers. Integer
arithmetic is exact or fails, decimal arithmetic follows IEEE 754.
-/

namespace SeriesQuery

/-! ## Comparisons -/

inductive Comparison where
  | equals
  | notEquals
  | greater
  | greaterOrEqual
  | less
  | lessOrEqual
deriving DecidableEq, Repr

namespace Comparison

def symbol : Comparison → String
  | .equals => "=="
  | .notEquals => "!="
  | .greater => ">"
  | .greaterOrEqual => ">="
  | .less => "<"
  | .lessOrEqual => "<="

def isEquality : Comparison → Bool
  | .equals | .notEquals => true
  | _ => false

/-- Numbers have an order, texts and truth values only equality, timestamps neither. -/
def isDefined (comparison : Comparison) : DataType → Bool
  | .integer | .decimal => true
  | .string | .boolean => comparison.isEquality
  | .timestamp => false

def check (comparison : Comparison) (type : DataType) : Except CompileError Unit :=
  if comparison.isDefined type then .ok ()
  else .error (.unsupportedOperator comparison.symbol type)

/-- Whether the comparison holds of two values in the given order; values without an order are
only different. -/
def holds (comparison : Comparison) (order : Option Ordering) : Bool :=
  match comparison with
  | .equals => order == some .eq
  | .notEquals => order != some .eq
  | .greater => order == some .gt
  | .greaterOrEqual => order == some .gt || order == some .eq
  | .less => order == some .lt
  | .lessOrEqual => order == some .lt || order == some .eq

def orderDecimals (a b : Float) : Option Ordering :=
  if a < b then some .lt
  else if b < a then some .gt
  else if a == b then some .eq
  else none

def evaluate (comparison : Comparison) (left right : Value) : Except EvalError Bool :=
  match left, right with
  | .integer a, .integer b => .ok (comparison.holds (some (compare a.toInt b.toInt)))
  | .decimal a, .decimal b => .ok (comparison.holds (orderDecimals a b))
  | .string a, .string b => .ok (comparison.holds (some (if a = b then .eq else .lt)))
  | .boolean a, .boolean b => .ok (comparison.holds (some (if a = b then .eq else .lt)))
  | left, right => .error ((left.dataType?.getD .boolean).mismatch right)

end Comparison

/-! ## Logic -/

inductive LogicalOp where
  | and
  | or
deriving DecidableEq, Repr

def LogicalOp.symbol : LogicalOp → String
  | .and => "and"
  | .or => "or"

/-! ## Arithmetic -/

inductive NumericOp where
  | add
  | subtract
  | multiply
  | divide
  | modulo
deriving DecidableEq, Repr

namespace NumericOp

def symbol : NumericOp → String
  | .add => "+"
  | .subtract => "-"
  | .multiply => "*"
  | .divide => "/"
  | .modulo => "%"

def name : NumericOp → String
  | .add => "addition"
  | .subtract => "subtraction"
  | .multiply => "multiplication"
  | .divide => "division"
  | .modulo => "modulo"

def check (op : NumericOp) (type : DataType) : Except CompileError Unit := do
  type.requireNumeric
  if op = .modulo ∧ type ≠ .integer then throw (.unsupportedOperator op.symbol type)

def fit (op : NumericOp) (exact : Int) : Except EvalError Int64 :=
  match integer? exact with
  | some i => .ok i
  | none => .error (.overflow op.name)

/-- Integer arithmetic: a quotient is rounded toward zero, a remainder has the sign of the
dividend and is computed with its quotient, so it overflows where the quotient does. -/
def integer (op : NumericOp) (a b : Int64) : Except EvalError Int64 :=
  match op with
  | .add => op.fit (a.toInt + b.toInt)
  | .subtract => op.fit (a.toInt - b.toInt)
  | .multiply => op.fit (a.toInt * b.toInt)
  | .divide => if b = 0 then .error .divisionByZero else op.fit (a.toInt.tdiv b.toInt)
  | .modulo =>
    if b = 0 then .error .divisionByZero
    else do
      let _quotient ← op.fit (a.toInt.tdiv b.toInt)
      op.fit (a.toInt.tmod b.toInt)

def decimal (op : NumericOp) (a b : Float) : Float :=
  match op with
  | .add => a + b
  | .subtract => a - b
  | .multiply => a * b
  | .divide => a / b
  | .modulo => Decimal.remainder a b

def evaluate (op : NumericOp) (left right : Value) : Except EvalError Value :=
  match left, right with
  | .integer a, .integer b => (op.integer a b).map .integer
  | .decimal a, .decimal b => .ok (.decimal (op.decimal a b))
  | left, right => .error ((left.dataType?.getD .decimal).mismatch right)

end NumericOp

/-! ## Functions of one number -/

inductive UnaryOp where
  | abs
  | negate
  | sqrt
  | ceil
  | floor
  | round
  | log
  | log10
  | exp
  | sin
  | cos
  | tan
deriving DecidableEq, Repr

namespace UnaryOp

def name : UnaryOp → String
  | .abs => "abs"
  | .negate => "negate"
  | .sqrt => "sqrt"
  | .ceil => "ceil"
  | .floor => "floor"
  | .round => "round"
  | .log => "log"
  | .log10 => "log10"
  | .exp => "exp"
  | .sin => "sin"
  | .cos => "cos"
  | .tan => "tan"

def takesIntegers : UnaryOp → Bool
  | .abs | .negate | .sqrt => true
  | _ => false

def check (op : UnaryOp) (type : DataType) : Except CompileError Unit := do
  type.requireNumeric
  if type = .integer ∧ !op.takesIntegers then throw (.unsupportedOperator op.name type)

def fit (op : UnaryOp) (exact : Int) : Except EvalError Int64 :=
  match integer? exact with
  | some i => .ok i
  | none => .error (.overflow op.name)

/-- The square root of an integer is the decimal root without its fraction. -/
def integer (op : UnaryOp) (i : Int64) : Except EvalError Int64 :=
  match op with
  | .abs => op.fit i.toInt.natAbs
  | .negate => op.fit (-i.toInt)
  | .sqrt =>
    if i < 0 then .error (.domain op.name (Value.integerText i))
    else truncateDecimal (Float.sqrt (Float.ofInt i.toInt))
  | op => .error (.domain "integer function" (op.name ++ "(" ++ Value.integerText i ++ ")"))

/-- Halves are rounded away from zero. -/
def decimal (op : UnaryOp) (x : Float) : Float :=
  match op with
  | .abs => x.abs
  | .negate => -x
  | .sqrt => x.sqrt
  | .ceil => x.ceil
  | .floor => x.floor
  | .round => x.round
  | .log => x.log
  | .log10 => x.log10
  | .exp => x.exp
  | .sin => x.sin
  | .cos => x.cos
  | .tan => x.tan

def evaluate (op : UnaryOp) : Value → Except EvalError Value
  | .integer i => (op.integer i).map .integer
  | .decimal x => .ok (.decimal (op.decimal x))
  | value => .error (DataType.decimal.mismatch value)

end UnaryOp

end SeriesQuery
