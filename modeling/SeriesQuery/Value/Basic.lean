import SeriesQuery.Decimal.Layout
import SeriesQuery.Time.Rfc3339
import SeriesQuery.Value.Integer

/-!
# Values

The scalars of a row, and the data types that a field can have. Null belongs to every type; all
other values have exactly one.
-/

namespace SeriesQuery

inductive DataType where
  | integer
  | decimal
  | string
  | boolean
  | timestamp
deriving DecidableEq, Repr

namespace DataType

def text : DataType → String
  | .integer => "INTEGER"
  | .decimal => "DECIMAL"
  | .string => "STRING"
  | .boolean => "BOOLEAN"
  | .timestamp => "TIMESTAMP"

def isNumeric : DataType → Bool
  | .integer | .decimal => true
  | .string | .boolean | .timestamp => false

end DataType

inductive Value where
  | null
  | boolean (value : Bool)
  | integer (value : Int64)
  | decimal (value : Float)
  | string (value : String)
  | timestamp (value : Instant)
deriving DecidableEq

namespace Value

def dataType? : Value → Option DataType
  | .null => none
  | .boolean _ => some .boolean
  | .integer _ => some .integer
  | .decimal _ => some .decimal
  | .string _ => some .string
  | .timestamp _ => some .timestamp

def typeName : Value → String
  | .null => "null"
  | .boolean _ => "boolean"
  | .integer _ => "integer"
  | .decimal _ => "decimal"
  | .string _ => "string"
  | .timestamp _ => "timestamp"

def isNull : Value → Bool
  | .null => true
  | _ => false

def asInteger? : Value → Option Int64
  | .integer value => some value
  | _ => none

/-- The number of a decimal or an integer; an integer is rounded to the nearest decimal. -/
def asDecimal? : Value → Option Float
  | .decimal value => some value
  | .integer value => some (Float.ofInt value.toInt)
  | _ => none

def asString? : Value → Option String
  | .string value => some value
  | _ => none

def asBoolean? : Value → Option Bool
  | .boolean value => some value
  | _ => none

def asTimestamp? : Value → Option Instant
  | .timestamp value => some value
  | _ => none

def integerText (value : Int64) : String :=
  String.ofList (Text.writeInteger value.toInt)

def text : Value → String
  | .null => "NULL"
  | .boolean true => "true"
  | .boolean false => "false"
  | .integer value => integerText value
  | .decimal value => Decimal.text value
  | .string value => value
  | .timestamp value => value.text

def described (value : Value) : String :=
  value.text ++ " (" ++ value.typeName ++ ")"

theorem isNull_iff {value : Value} : value.isNull = true ↔ value = .null := by
  cases value <;> simp [isNull]

end Value

/-- The values of one sample, one for each field. -/
abbrev Row := List Value

structure Sample (α : Type) where
  timestamp : Instant
  value : α

def Row.first (row : Row) : Value :=
  row.head?.getD .null

end SeriesQuery
