import SeriesQuery.Field.Meta
import SeriesQuery.Value.Conversion

/-!
# Fields

A field describes one value of every row: the URN that names it, its data type, whether it can be
null, its unit and its metadata.
-/

namespace SeriesQuery

structure Field where
  urn : String
  dataType : DataType
  required : Bool
  unit : Option String
  metadata : Meta

namespace Field

def plain (urn : String) (dataType : DataType) (required : Bool) : Field :=
  ⟨urn, dataType, required, none, .empty⟩

def retype (field : Field) (dataType : DataType) (required : Bool) : Field :=
  { field with dataType, required }

/-- URN and type, `NULL` if the field is optional, and the unit in brackets. -/
def text (field : Field) : String :=
  let base := field.urn ++ " " ++ field.dataType.text
  let base := if field.required then base else base ++ " NULL"
  match field.unit with
  | some unit => base ++ " [" ++ unit ++ "]"
  | none => base

def check (field : Field) (value : Value) : Except EvalError Unit :=
  if value.isNull then
    if field.required then .error (.typeMismatch field.dataType (.null field.urn)) else .ok ()
  else field.dataType.validate value

def commonUnit : List Field → Option String
  | [] => none
  | first :: rest => if rest.all (·.unit = first.unit) then first.unit else none

def indexOf (fields : List Field) (urn : String) : Except CompileError Nat :=
  match fields.findIdx? (·.urn = urn) with
  | some index => .ok index
  | none => .error (.fieldNotFound urn)

def hasBlankUrn (field : Field) : Bool :=
  (Text.trim field.urn.toList).isEmpty

def validateFrom : List String → List Field → Except CompileError Unit
  | _, [] => .ok ()
  | seen, field :: rest =>
    if field.hasBlankUrn then .error (.blankUrn field.dataType)
    else if field.urn ∈ seen then .error (.duplicateField field.urn)
    else validateFrom (field.urn :: seen) rest

/-- Refuses fields that cannot name the values of a row: a URN is not blank, and no two fields
have the same. -/
def validate (fields : List Field) : Except CompileError Unit :=
  validateFrom [] fields

end Field

end SeriesQuery
