import SeriesQuery.Expr.Operator

/-!
# Reductions

The fold of the values of one instant into one value. An accumulator takes the values in turn; a
value that it refuses leaves it as it was.
-/

namespace SeriesQuery

inductive Reduction where
  | sum
  | avg
  | min
  | max
  | count
deriving DecidableEq, Repr

namespace Reduction

def name : Reduction → String
  | .sum => "sum"
  | .avg => "avg"
  | .min => "min"
  | .max => "max"
  | .count => "count"

def outputType (reduction : Reduction) (input : DataType) : DataType :=
  match reduction with
  | .avg => .decimal
  | .count => .integer
  | _ => input

/-- Whether one value alone is its own result. -/
def usesIdentity : Reduction → Bool
  | .sum | .min | .max => true
  | .avg | .count => false

def keepsUnit (reduction : Reduction) : Bool :=
  reduction != .count

end Reduction

inductive Accumulator where
  /-- Integers are summed exactly, all other numbers as decimals. -/
  | sum (type : DataType) (integer : Int64) (decimal : Float)
  /-- The values of a mean are counted without a bound: there is at most one for each input, and
  no list of inputs is as long as 64 bits count. -/
  | avg (type : DataType) (total : Float) (taken : Nat)
  | extreme (type : DataType) (wanted : Ordering) (current : Option Value)
  | count (taken : Int64)

def Reduction.start (reduction : Reduction) (type : DataType) : Accumulator :=
  match reduction with
  | .sum => .sum type 0 0
  | .avg => .avg type 0 0
  | .min => .extreme type .lt none
  | .max => .extreme type .gt none
  | .count => .count 0

namespace Accumulator

/-- The order of two values of a type; decimals that are no numbers have none. -/
def order (type : DataType) (a b : Value) : Except EvalError (Option Ordering) :=
  match a, b with
  | .integer a, .integer b => .ok (some (compare a.toInt b.toInt))
  | a, b => do return Comparison.orderDecimals (← type.toDecimal a) (← type.toDecimal b)

def add (accumulator : Accumulator) (value : Value) : Except EvalError Accumulator :=
  match accumulator with
  | .sum .integer total decimal =>
    match value with
    | .integer i =>
      match integer? (total.toInt + i.toInt) with
      | some total => .ok (.sum .integer total decimal)
      | none => .error (.overflow "sum")
    | value => do return .sum .integer total (decimal + (← DataType.integer.toDecimal value))
  | .sum type integer total => do return .sum type integer (total + (← type.toDecimal value))
  | .avg type total taken => do return .avg type (total + (← type.toDecimal value)) (taken + 1)
  | .extreme type wanted current => do
    type.validate value
    match current with
    | none => return .extreme type wanted (some value)
    | some best =>
      if (← order type value best) = some wanted then return .extreme type wanted (some value)
      else return .extreme type wanted (some best)
  | .count taken => .ok (.count (taken + 1))

/-- A turn of an accumulator in place. A step that fails ends the turn; what the steps before it
changed stays changed. -/
abbrev Turn := ExceptT EvalError (StateM Accumulator) Unit

def take (accumulator : Accumulator) (value : Value) : Turn :=
  match accumulator with
  | .sum .integer total decimal =>
    match value with
    | .integer i =>
      match integer? (total.toInt + i.toInt) with
      | some total => set (sum .integer total decimal)
      | none => throw (.overflow "sum")
    | value => do set (sum .integer total (decimal + (← DataType.integer.toDecimal value)))
  | .sum type integer total => do set (sum type integer (total + (← type.toDecimal value)))
  | .avg type total taken => do
    set (avg type (total + (← type.toDecimal value)) (taken + 1))
  | .extreme type wanted current => do
    type.validate value
    match current with
    | none => set (extreme type wanted (some value))
    | some best =>
      if (← order type value best) = some wanted then set (extreme type wanted (some value))
  | .count taken => set (count (taken + 1))

/-- How the turn with a value ends, and the accumulator after it. -/
def offer (accumulator : Accumulator) (value : Value) : Except EvalError Unit × Accumulator :=
  (accumulator.take value).run.run accumulator

/-- The result for the values so far. Without any, a mean and an extreme are null. -/
def result : Accumulator → Except EvalError Value
  | .sum .integer total _ => .ok (.integer total)
  | .sum type _ total => type.ofDecimal total
  | .avg _ total taken =>
    .ok (if taken = 0 then .null else .decimal (total / Float.ofInt taken))
  | .extreme _ _ current => .ok (current.getD .null)
  | .count taken => .ok (.integer taken)

end Accumulator

end SeriesQuery
