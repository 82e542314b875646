import SeriesQuery.Decimal.Reader
import SeriesQuery.Value.Basic

/-!
# Evaluation errors

What can go wrong while the rows of a query are read. An error is a cause; the contexts around it
name the stages that it passed on its way out.
-/

namespace SeriesQuery

inductive Misplaced where
  | value (value : Value)
  /-- Null in a field that is required. -/
  | null (urn : String)

def Misplaced.text : Misplaced → String
  | .value found => found.described
  | .null urn => "NULL in required field '" ++ urn ++ "'"

inductive CastFault where
  | outOfRange
  | integer (fault : Text.IntegerFault)
  | decimal (fault : Decimal.ReadFault)
  | instant (fault : Instant.ReadFault)
  | notScalar
deriving DecidableEq, Repr

def CastFault.message : CastFault → String
  | .outOfRange => "out of range"
  | .integer fault => fault.message
  | .decimal fault => fault.message
  | .instant fault => fault.message
  | .notScalar => "arrays and objects are not scalar values"

inductive EvalError where
  | typeMismatch (expected : DataType) (found : Misplaced)
  | nonNumericType (type : DataType)
  | castFailed (text : String) (target : DataType) (fault : CastFault)
  | divisionByZero
  | overflow (operation : String)
  | domain (operation : String) (argument : String)
  | interpolationOutOfBounds (target start finish : Instant)
  | zeroTimeDelta (timestamp : Instant)
  | rowWidthMismatch (input expected found : Nat)
  | unsorted (input : Nat) (previous timestamp : Instant)
  | nonAdvancingPeriod (boundary : Instant)
  | gapTooLarge (start finish : Instant) (limit : Nat)
  | context (stage : String) (cause : EvalError)

namespace EvalError

def message : EvalError → String
  | .typeMismatch expected found =>
    "Value " ++ found.text ++ " does not match data type " ++ expected.text
  | .nonNumericType type => "Data type " ++ type.text ++ " is not numeric"
  | .castFailed text target fault =>
    "Cannot cast '" ++ text ++ "' to " ++ target.text ++ ": " ++ fault.message
  | .divisionByZero => "Division by zero"
  | .overflow operation => "Integer overflow in " ++ operation
  | .domain operation argument => operation ++ " is undefined for " ++ argument
  | .interpolationOutOfBounds target start finish =>
    "Interpolation target " ++ target.inMessage ++ " outside [" ++ start.inMessage ++ ", " ++
      finish.inMessage ++ "]"
  | .zeroTimeDelta timestamp => "Consecutive samples share timestamp " ++ timestamp.inMessage
  | .rowWidthMismatch input expected found =>
    s!"Input {input} declared {expected} fields but produced {found}"
  | .unsorted input previous timestamp =>
    s!"Input {input} is not sorted: " ++ timestamp.inMessage ++ " follows " ++ previous.inMessage
  | .nonAdvancingPeriod boundary =>
    "Alignment period did not advance past " ++ boundary.inMessage
  | .gapTooLarge start finish limit =>
    "Gap between " ++ start.inMessage ++ " and " ++ finish.inMessage ++
      s!" exceeds {limit} fill points"
  | .context stage cause => stage ++ ": " ++ cause.message

def cause : EvalError → EvalError
  | .context _ inner => inner.cause
  | error => error

def within {α : Type} (stage : String) : Except EvalError α → Except EvalError α
  | .ok a => .ok a
  | .error e => .error (.context stage e)

end EvalError

end SeriesQuery
