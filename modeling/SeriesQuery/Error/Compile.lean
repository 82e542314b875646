import SeriesQuery.Json.Printer
import SeriesQuery.Text.Escaped
import SeriesQuery.Value.Basic

/-!
# Compile errors

What can be wrong with a query or a configuration before any row is read. An error is a cause;
the contexts around it name the parts of the query that it passed on its way out.
-/

namespace SeriesQuery

/-- A value that has the wrong type in the text of a query. -/
inductive Unfit where
  | constant (value : Value)
  | counterMaximum (value : Value)

def Unfit.text : Unfit → String
  | .constant value => "constant " ++ value.described
  | .counterMaximum value => "counter maximum " ++ value.text

inductive Setting where
  /-- A whole number of 32 bits. -/
  | offset
  /-- A whole number of 64 bits that is not negative. -/
  | count
  | text
deriving DecidableEq, Repr

def Setting.name : Setting → String
  | .offset => "i32"
  | .count => "usize"
  | .text => "a string"

inductive ConfigFault where
  | joinWithoutInputs
  | periodNotPositive (millis : Int)
  | periodTooLong (seconds : Int)
  | invalidOffset (seconds : Int)
  | malformedDocument
  | documentNotObject
  | wrongType (found : Json) (expected : Setting)
  | numberOutOfBounds (found : Int) (expected : Setting)
  | unknownKey (key : String) (known : List String)

namespace ConfigFault

def describe : Json → String
  | .null => "null"
  | .bool value => "boolean `" ++ (if value then "true" else "false") ++ "`"
  | .integer value => "integer `" ++ String.ofList (Text.writeInteger value) ++ "`"
  | .decimal value => "floating point `" ++ (Decimal.jsonText? value).getD "" ++ "`"
  | .string value => "string " ++ Text.escaped value
  | .array _ => "sequence"
  | .object _ => "map"

def message : ConfigFault → String
  | .joinWithoutInputs => "join needs at least one input"
  | .periodNotPositive millis => s!"alignment period must be positive, got {millis}ms"
  | .periodTooLong seconds => s!"alignment period of {seconds}s is too long"
  | .invalidOffset seconds => s!"invalid UTC offset {seconds}s"
  | .malformedDocument => "engine config: not a JSON text"
  | .documentNotObject => "engine config must be a JSON object"
  | .wrongType found expected =>
    "engine config: invalid type: " ++ describe found ++ ", expected " ++ expected.name
  | .numberOutOfBounds found expected =>
    "engine config: invalid value: " ++ describe (.integer found) ++ ", expected " ++ expected.name
  | .unknownKey key known =>
    "engine config: unknown field `" ++ key ++ "`, expected one of " ++
      ", ".intercalate (known.map fun name => "`" ++ name ++ "`")

end ConfigFault

inductive ReductionFault (ε : Type) where
  | unalignable (cause : ε)
  | typeDiffers (expected found : DataType)
  | notRequired

inductive BranchAspect where
  | dataType
  | unit
  | required
deriving DecidableEq, Repr

def BranchAspect.text : BranchAspect → String
  | .dataType => "data type"
  | .unit => "unit"
  | .required => "required"

inductive CompileError where
  | unsupportedCast (source target : DataType)
  | nonNumericType (type : DataType)
  | unsupportedDataType (operation : String) (type : DataType)
  | typeMismatch (expected : DataType) (found : Unfit)
  | fieldNotFound (urn : String)
  | blankUrn (type : DataType)
  | duplicateField (urn : String)
  | nullRequiredConstant (urn : String)
  | operandNotRequired (urn : String)
  | operandNotBoolean (urn : String) (found : DataType)
  | operandTypeMismatch (left right : DataType)
  | unsupportedOperator (operator : String) (type : DataType)
  | branchMismatch (aspect : BranchAspect)
  | expectedSingleField (stage : String) (found : Nat)
  | reductionInput (index : Nat) (urn : String) (fault : ReductionFault CompileError)
  | noDatasources
  | invalidConfig (fault : ConfigFault)
  | context (place : String) (cause : CompileError)

namespace CompileError

def message : CompileError → String
  | .unsupportedCast source target =>
    "Unsupported cast from " ++ source.text ++ " to " ++ target.text
  | .nonNumericType type => "Data type " ++ type.text ++ " is not numeric"
  | .unsupportedDataType operation type =>
    "Unsupported data type " ++ type.text ++ " for " ++ operation
  | .typeMismatch expected found =>
    "Type mismatch: expected " ++ expected.text ++ ", found " ++ found.text
  | .fieldNotFound urn => "Field '" ++ urn ++ "' not found"
  | .blankUrn type => "Invalid field: empty URN for " ++ type.text ++ " field"
  | .duplicateField urn => "Duplicate field '" ++ urn ++ "'"
  | .nullRequiredConstant urn => "Constant '" ++ urn ++ "' is required but its value is null"
  | .operandNotRequired urn => "Operand '" ++ urn ++ "' must be required"
  | .operandNotBoolean urn found => "Operand '" ++ urn ++ "' must be BOOLEAN, found " ++ found.text
  | .operandTypeMismatch left right => "Operand types differ: " ++ left.text ++ " vs " ++ right.text
  | .unsupportedOperator operator type =>
    "Operator '" ++ operator ++ "' is not supported for " ++ type.text
  | .branchMismatch aspect => "Selector branches differ in " ++ aspect.text
  | .expectedSingleField stage found => stage ++ s!" expects exactly one field, found {found}"
  | .reductionInput index urn (.unalignable cause) =>
    s!"Reduction input {index} ('" ++ urn ++ "'): " ++ cause.message
  | .reductionInput index urn (.typeDiffers expected found) =>
    s!"Reduction input {index} ('" ++ urn ++ "'): expected " ++ expected.text ++ ", found " ++
      found.text
  | .reductionInput index urn .notRequired =>
    s!"Reduction input {index} ('" ++ urn ++ "'): field must be required"
  | .noDatasources => "Reduction has no datasources and no fallback value"
  | .invalidConfig fault => "Invalid configuration: " ++ fault.message
  | .context place cause => place ++ ": " ++ cause.message

/-- The error without the contexts around it. -/
def cause : CompileError → CompileError
  | .context _ inner => inner.cause
  | error => error

def within {α : Type} (place : String) : Except CompileError α → Except CompileError α
  | .ok a => .ok a
  | .error e => .error (.context place e)

end CompileError

end SeriesQuery
