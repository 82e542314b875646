import SeriesQuery.Proofs.Expr.Returns

/-!
# The leaves of an expression

What an expression takes from outside of its nodes: constants, and the columns
that its references name. A reference finds its column by the name alone.
-/

namespace SeriesQuery

inductive Leaf where
  | constant (field : Field) (value : Value)
  | reference (urn : String)

def Expr.leaves : Expr → List Leaf
  | .constant field value => [.constant field value]
  | .reference urn => [.reference urn]
  | .cast source _ => source.leaves
  | .condition _ left right => left.leaves ++ right.leaves
  | .logical _ left right => left.leaves ++ right.leaves
  | .numeric _ left right => left.leaves ++ right.leaves
  | .unary _ operand => operand.leaves
  | .nvl source alternative => source.leaves ++ alternative.leaves
  | .selector choice whenTrue whenFalse => choice.leaves ++ whenTrue.leaves ++ whenFalse.leaves

/-- The value of a row that stands under a name. -/
def Row.named? (fields : List Field) (row : Row) (urn : String) : Option Value :=
  ((fields.zip row).find? (·.1.urn = urn)).map (·.2)

namespace Leaf

def field? (fields : List Field) : Leaf → Option Field
  | .constant field _ => some field
  | .reference urn => fields.find? (·.urn = urn)

def value? (fields : List Field) (row : Row) : Leaf → Option Value
  | .constant _ value => some value
  | .reference urn => row.named? fields urn

end Leaf

-- ---------------------------------------------------------------------------
-- References
-- ---------------------------------------------------------------------------

namespace Compiled

variable {fields : List Field} {row : Row} {compiled : Compiled}

theorem reference_field (fields : List Field) (urn : String) :
    (reference fields urn).map (·.field) =
      (fields.find? (·.urn = urn)).elim (.error (.fieldNotFound urn)) .ok := by
  rw [List.find?_eq_bind_findIdx?_getElem?, reference, Field.indexOf]
  cases hfound : fields.findIdx? (·.urn = urn) with
  | none => rfl
  | some index =>
    have hlt : index < fields.length := (List.findIdx?_eq_some_iff_getElem.mp hfound).1
    simp only [bind, Except.bind, Option.bind_some, List.getElem?_eq_getElem hlt]
    rfl

theorem reference_named (h : reference fields urn = .ok compiled)
    (hwidth : row.length = fields.length) :
    ∃ v, row.named? fields urn = some v ∧ compiled.eval row = .ok v := by
  obtain ⟨index, value, hindex, hfield, hvalue, heval⟩ := reference_returns h hwidth
  refine ⟨value, ?_, heval⟩
  have hcolumn : (fields.zip row).findIdx? (·.1.urn = urn) = some index := by
    have hnames := List.findIdx?_map (l := fields.zip row) (f := Prod.fst) (p := (·.urn = urn))
    rw [List.map_fst_zip (by omega), hindex] at hnames
    exact hnames.symm
  have hat : (fields.zip row)[index]? = some (compiled.field, value) :=
    List.getElem?_zip_eq_some.mpr ⟨hfield, hvalue⟩
  rw [Row.named?, List.find?_eq_bind_findIdx?_getElem?, hcolumn, Option.bind_some, hat,
    Option.map_some]

end Compiled

end SeriesQuery
