import Mathlib.Data.List.Forall2
import SeriesQuery.Field.Basic
import SeriesQuery.Proofs.Outcome

/-!
# Rows that fit their fields

A field admits a value of its data type, and null unless it is required. A
row conforms to fields if it has one value for each of them, which the field
admits.
-/

namespace SeriesQuery

theorem DataType.validate_eq_ok {type : DataType} {value : Value} {u : Unit} :
    type.validate value = .ok u ↔ value.dataType? = some type :=
  DataType.validate_eq_ok_iff

namespace Field

def Admits (field : Field) (value : Value) : Prop := field.check value = .ok ()

theorem admits_iff {field : Field} {value : Value} :
    field.Admits value ↔
      (value = .null ∧ field.required = false) ∨ value.dataType? = some field.dataType := by
  unfold Admits check
  cases value with
  | null => cases field.required <;> simp [Value.isNull, Value.dataType?]
  | _ => simp [Value.isNull, DataType.validate_eq_ok]

theorem admits_null {field : Field} : field.Admits .null ↔ field.required = false := by
  simp [admits_iff, Value.dataType?]

theorem admits_of_dataType {field : Field} {value : Value}
    (h : value.dataType? = some field.dataType) : field.Admits value :=
  admits_iff.mpr (.inr h)

theorem Admits.dataType {field : Field} {value : Value} (h : field.Admits value)
    (hv : value ≠ .null) : value.dataType? = some field.dataType := by
  rcases admits_iff.mp h with ⟨hnull, -⟩ | htype
  · exact absurd hnull hv
  · exact htype

theorem Admits.dataType_of_required {field : Field} {value : Value} (h : field.Admits value)
    (hr : field.required = true) : value.dataType? = some field.dataType := by
  refine h.dataType ?_
  rintro rfl
  simp [admits_null, hr] at h

theorem Admits.congr {a b : Field} {value : Value} (h : a.Admits value)
    (ht : a.dataType = b.dataType) (hr : a.required = b.required) : b.Admits value := by
  rwa [admits_iff, ← ht, ← hr, ← admits_iff]

end Field

/-- One value for each field, which the field admits. -/
def Row.Conforms (fields : List Field) (row : Row) : Prop :=
  List.Forall₂ Field.Admits fields row

theorem Row.Conforms.length_eq {fields : List Field} {row : Row} (h : row.Conforms fields) :
    row.length = fields.length :=
  (List.Forall₂.length_eq h).symm

end SeriesQuery
