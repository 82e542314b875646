import SeriesQuery.Proofs.Expr.Leaves

/-!
# Nulls in arithmetic

Constants, references, casts and operators on numbers make up arithmetic. What
it returns is null just where one of its leaves is: no operator answers null for
values, and none answers a value for null. Its field follows the fields of the
leaves in the same way.
-/

namespace SeriesQuery

-- ---------------------------------------------------------------------------
-- Operators
-- ---------------------------------------------------------------------------

theorem Cast.run_ne_null {cast : Cast} (h : cast.run v = .ok w) (hv : v ≠ .null) : w ≠ .null := by
  cases cast with
  | same =>
    cases h
    exact hv
  | decimalToInteger =>
    cases v <;> simp [run, map_eq_ok] at h
    obtain ⟨i, -, rfl⟩ := h
    simp
  | stringToInteger =>
    cases v <;> simp [run] at h
    rename_i text
    rintro rfl
    have hread := @readIntegerValue_outcome text
    simp [h, Value.dataType?] at hread
  | stringToDecimal =>
    cases v <;> simp [run] at h
    rename_i text
    rintro rfl
    have hread := @readDecimalValue_outcome text
    simp [h, Value.dataType?] at hread
  | _ =>
    cases v <;> simp [run] at h
    simp [← h]

theorem NumericOp.evaluate_ne_null {op : NumericOp} (h : op.evaluate a b = .ok v) : v ≠ .null := by
  unfold evaluate at h
  split at h
  · obtain ⟨i, -, rfl⟩ := map_eq_ok.mp h
    simp
  · cases h
    simp
  · cases h

theorem UnaryOp.evaluate_ne_null {op : UnaryOp} (h : op.evaluate a = .ok v) : v ≠ .null := by
  unfold evaluate at h
  split at h
  · obtain ⟨i, -, rfl⟩ := map_eq_ok.mp h
    simp
  · cases h
    simp
  · cases h

theorem Compiled.constant_null {field : Field} (h : constant field value = .ok compiled) :
    compiled.field = field ∧ ∃ v, (∀ row, compiled.eval row = .ok v) ∧
      (v = .null ↔ value = .null) := by
  simp only [constant, throw_unless_eq_ok, pure_eq_ok] at h
  obtain ⟨-, -, rfl⟩ := h
  refine ⟨rfl, _, fun _ => rfl, ?_⟩
  split
  · simp
  · rfl

-- ---------------------------------------------------------------------------
-- Arithmetic
-- ---------------------------------------------------------------------------

namespace Expr

inductive Arithmetic : Expr → Prop where
  | constant : Arithmetic (.constant field value)
  | reference : Arithmetic (.reference urn)
  | cast : Arithmetic source → Arithmetic (.cast source target)
  | numeric : Arithmetic left → Arithmetic right → Arithmetic (.numeric op left right)
  | unary : Arithmetic operand → Arithmetic (.unary op operand)

variable {expr : Expr} {fields : List Field} {row : Row}

theorem Arithmetic.null_iff (hexpr : expr.Arithmetic) (hwidth : row.length = fields.length)
    (h : expr.Gives fields row v) :
    v = .null ↔ ∃ leaf ∈ expr.leaves, leaf.value? fields row = some .null := by
  induction hexpr generalizing v with
  | constant =>
    obtain ⟨compiled, hc, hv⟩ := h
    obtain ⟨-, w, heval, hnull⟩ := Compiled.constant_null hc
    cases (heval row).symm.trans hv
    simp [hnull, leaves, Leaf.value?]
  | reference =>
    obtain ⟨compiled, hc, hv⟩ := h
    obtain ⟨w, hw, heval⟩ := Compiled.reference_named hc hwidth
    cases heval.symm.trans hv
    simp [leaves, Leaf.value?, hw]
  | cast _ ih =>
    obtain ⟨a, ha, hvalue⟩ := h.cast
    rw [leaves, ← ih ha]
    split at hvalue
    · next hnull => exact iff_of_true hvalue hnull
    · next hnull =>
      obtain ⟨_, conversion, -, hrun⟩ := hvalue
      exact iff_of_false (conversion.run_ne_null hrun hnull) hnull
  | numeric _ _ ihl ihr =>
    obtain ⟨a, ha, b, hb, hvalue⟩ := h.numeric
    simp only [leaves, List.mem_append, or_and_right, exists_or, ← ihl ha, ← ihr hb]
    split at hvalue
    · next hnull => exact iff_of_true hvalue hnull
    · next hnull => exact iff_of_false (NumericOp.evaluate_ne_null hvalue) hnull
  | unary _ ih =>
    obtain ⟨a, ha, hvalue⟩ := h.unary
    rw [leaves, ← ih ha]
    split at hvalue
    · next hnull => exact iff_of_true hvalue hnull
    · next hnull => exact iff_of_false (UnaryOp.evaluate_ne_null hvalue) hnull

theorem Arithmetic.required_iff (hexpr : expr.Arithmetic)
    (h : expr.compile fields = .ok compiled) :
    compiled.field.required = true ↔
      ∀ leaf ∈ expr.leaves, ∃ field, leaf.field? fields = some field ∧ field.required = true := by
  induction hexpr generalizing compiled with
  | constant =>
    obtain ⟨rfl, -⟩ := Compiled.constant_null h
    simp [leaves, Leaf.field?]
  | @reference urn =>
    have hfield := Compiled.reference_field fields urn
    rw [show Compiled.reference fields urn = .ok compiled from h] at hfield
    cases hfound : fields.find? (·.urn = urn) with
    | none => simp [hfound, Except.map] at hfield
    | some field =>
      rw [hfound] at hfield
      obtain rfl := Except.ok.inj hfield
      simp [leaves, Leaf.field?, hfound]
  | cast _ ih =>
    simp only [compile, Compiled.cast, bind_eq_ok, CompileError.within_eq_ok, pure_eq_ok] at h
    obtain ⟨source, hsource, conversion, -, rfl⟩ := h
    exact (ih hsource :)
  | numeric _ _ ihl ihr =>
    simp only [compile, Compiled.numeric, bind_eq_ok, CompileError.within_eq_ok, pure_eq_ok] at h
    obtain ⟨left, hleft, right, hright, type, -, _, -, rfl⟩ := h
    simp only [leaves, List.mem_append, or_imp, forall_and, Bool.and_eq_true, ihl hleft, ihr hright]
  | unary _ ih =>
    simp only [compile, Compiled.unary, bind_eq_ok, CompileError.within_eq_ok, pure_eq_ok] at h
    obtain ⟨operand, hoperand, _, -, rfl⟩ := h
    exact (ih hoperand :)

/-- What arithmetic returns for a row is null if and only if one of its leaves is
null on the row, and its field is required if and only if those of all leaves
are. -/
theorem nulls_propagate_exactly (hexpr : expr.Arithmetic)
    (h : expr.compile fields = .ok compiled) :
    (∀ row v, Row.Conforms fields row → compiled.eval row = .ok v →
      (v = .null ↔ ∃ leaf ∈ expr.leaves, leaf.value? fields row = some .null)) ∧
    (compiled.field.required = true ↔
      ∀ leaf ∈ expr.leaves, ∃ field, leaf.field? fields = some field ∧ field.required = true) :=
  ⟨fun _ _ hrow hv => hexpr.null_iff hrow.length_eq ⟨compiled, h, hv⟩, hexpr.required_iff h⟩

def debit : Expr :=
  .unary .negate (.numeric .add (.cast (.reference "amount") .decimal) (.reference "fee"))

def debitFields : List Field := [.plain "amount" .integer true, .plain "fee" .decimal false]

theorem debit_nulls_propagate_exactly :
    debit.Arithmetic ∧ Row.Conforms debitFields [.integer 3, .null] ∧
      ∃ compiled, debit.compile debitFields = .ok compiled ∧
        compiled.eval [.integer 3, .null] = .ok .null ∧
        (∃ leaf ∈ debit.leaves, leaf.value? debitFields [.integer 3, .null] = some .null) ∧
        ¬ ∀ leaf ∈ debit.leaves, ∃ field,
          leaf.field? debitFields = some field ∧ field.required = true := by
  have hexpr : debit.Arithmetic := .unary (.numeric (.cast .reference) .reference)
  have hrow : Row.Conforms debitFields [.integer 3, .null] :=
    .cons rfl (.cons rfl .nil)
  obtain ⟨compiled, hcompiled⟩ : ∃ compiled, debit.compile debitFields = .ok compiled := ⟨_, rfl⟩
  obtain ⟨hvalue, hfield⟩ := nulls_propagate_exactly hexpr hcompiled
  cases hcompiled
  refine ⟨hexpr, hrow, _, rfl, rfl, (hvalue _ _ hrow rfl).mp rfl, ?_⟩
  intro hall
  exact Bool.false_ne_true (hfield.mpr hall)

end Expr

end SeriesQuery
