import SeriesQuery.Decimal.Reader
import SeriesQuery.Error.Query
import SeriesQuery.Text.Blank

/-!
# Conversions

How values move between data types. Casts are the conversions of expressions: each has one source
and one target type. Coercion accepts a loosely typed value, and its result has the target type.
-/

namespace SeriesQuery

def truncateDecimal (x : Float) : Except EvalError Int64 :=
  match (Decimal.truncate? x).bind integer? with
  | some i => .ok i
  | none => .error (.castFailed (Decimal.text x) .integer .outOfRange)

namespace DataType

def requireNumeric (type : DataType) : Except CompileError Unit :=
  if type.isNumeric then .ok () else .error (.nonNumericType type)

def mismatch (expected : DataType) (found : Value) : EvalError :=
  .typeMismatch expected (.value found)

def toDecimal (type : DataType) (value : Value) : Except EvalError Float :=
  match type, value with
  | .integer, .integer i => .ok (Float.ofInt i.toInt)
  | .decimal, .decimal x => .ok x
  | .integer, value => .error (mismatch .integer value)
  | .decimal, value => .error (mismatch .decimal value)
  | type, _ => .error (.nonNumericType type)

/-- The value of a numeric type for a number; integers lose the fraction. -/
def ofDecimal (type : DataType) (x : Float) : Except EvalError Value :=
  match type with
  | .decimal => .ok (.decimal x)
  | .integer => (truncateDecimal x).map .integer
  | type => .error (.nonNumericType type)

def validate (type : DataType) (value : Value) : Except EvalError Unit :=
  if value.dataType? = some type then .ok () else .error (mismatch type value)

theorem validate_eq_ok_iff {type : DataType} {value : Value} :
    type.validate value = .ok () ↔ value.dataType? = some type := by
  unfold validate
  split <;> simp_all

/-! ## Coercion -/

def timestampOfMillis (millis : Int64) : Except EvalError Value :=
  match Instant.ofNanos? (millis.toInt * 1000000) with
  | some t => .ok (.timestamp t)
  | none => .error (.castFailed (Value.integerText millis) .timestamp .outOfRange)

def timestampOfText (text : String) : Except EvalError Value :=
  match Instant.readStrict text.toList with
  | .ok t => .ok (.timestamp t)
  | .error fault => .error (.castFailed text .timestamp (.instant fault))

/-- Converts what stands for a value of the type: numbers for each other, milliseconds and RFC
3339 texts for timestamps. -/
def convert (type : DataType) (value : Value) : Except EvalError Value :=
  match type, value with
  | .integer, .decimal x => (truncateDecimal x).map .integer
  | .decimal, .integer i => .ok (.decimal (Float.ofInt i.toInt))
  | .timestamp, .integer millis => timestampOfMillis millis
  | .timestamp, .string text => timestampOfText text
  | _, value => .ok value

/-- A value of the type for a loosely typed one; null stays null. -/
def coerce (type : DataType) (value : Value) : Except EvalError Value := do
  let converted ← type.convert value
  unless converted.isNull do type.validate converted
  return converted

end DataType

/-! ## Casts -/

inductive Cast where
  | same
  | integerToDecimal
  | integerToString
  | decimalToInteger
  | decimalToString
  | stringToInteger
  | stringToDecimal
deriving DecidableEq, Repr

/-- The integer that a text writes; blanks around it do not count. -/
def readIntegerValue (text : String) : Except EvalError Value :=
  match Text.readInteger lowestInteger highestInteger (Text.trim text.toList) with
  | .ok n => .ok (.integer (Int64.ofInt n))
  | .error fault => .error (.castFailed text .integer (.integer fault))

def readDecimalValue (text : String) : Except EvalError Value :=
  match Decimal.read (Text.trim text.toList) with
  | .ok x => .ok (.decimal x)
  | .error fault => .error (.castFailed text .decimal (.decimal fault))

namespace Cast

def between (source target : DataType) : Except CompileError Cast :=
  match source, target with
  | .integer, .decimal => .ok .integerToDecimal
  | .integer, .string => .ok .integerToString
  | .decimal, .integer => .ok .decimalToInteger
  | .decimal, .string => .ok .decimalToString
  | .string, .integer => .ok .stringToInteger
  | .string, .decimal => .ok .stringToDecimal
  | source, target =>
    if source = target then .ok .same else .error (.unsupportedCast source target)

def run (cast : Cast) (value : Value) : Except EvalError Value :=
  match cast, value with
  | .same, value => .ok value
  | .integerToDecimal, .integer i => .ok (.decimal (Float.ofInt i.toInt))
  | .integerToString, .integer i => .ok (.string (Value.integerText i))
  | .decimalToInteger, .decimal x => (truncateDecimal x).map .integer
  | .decimalToString, .decimal x => .ok (.string (Decimal.text x))
  | .stringToInteger, .string text => readIntegerValue text
  | .stringToDecimal, .string text => readDecimalValue text
  | .integerToDecimal, value => .error (DataType.integer.mismatch value)
  | .integerToString, value => .error (DataType.integer.mismatch value)
  | .decimalToInteger, value => .error (DataType.decimal.mismatch value)
  | .decimalToString, value => .error (DataType.decimal.mismatch value)
  | .stringToInteger, value => .error (DataType.string.mismatch value)
  | .stringToDecimal, value => .error (DataType.string.mismatch value)

end Cast

end SeriesQuery
