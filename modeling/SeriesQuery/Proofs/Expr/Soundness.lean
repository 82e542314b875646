import SeriesQuery.Proofs.Conformance
import SeriesQuery.Rowset.Columns

/-!
# Compiled expressions are sound

On a row that conforms to the input fields, a compiled expression returns a
value that its own field admits, or fails for a reason that lies in the values
of the row: a division by zero, an integer that does not fit, an argument
outside of a domain, a text or a number without counterpart in another type.
Nothing that compiling is there to rule out, a value of the wrong type or a row
of the wrong width, turns up while rows are read. There is one lemma for each
builder of `Compiled`, and the induction over expressions puts them together.
-/

namespace SeriesQuery

/-- The reason lies in the values of a row and not in their types. -/
def EvalError.IsValueFault (error : EvalError) : Prop :=
  match error.cause with
  | .divisionByZero | .overflow _ | .domain .. | .castFailed .. => True
  | _ => False

namespace EvalError

@[simp] theorem isValueFault_divisionByZero : divisionByZero.IsValueFault := trivial
@[simp] theorem isValueFault_overflow : (overflow operation).IsValueFault := trivial
@[simp] theorem isValueFault_domain : (domain operation argument).IsValueFault := trivial
@[simp] theorem isValueFault_castFailed : (castFailed text target fault).IsValueFault := trivial

theorem within_outcome {x : Except EvalError α} (h : Outcome x Q IsValueFault) :
    Outcome (within stage x) Q IsValueFault := by
  cases x with
  | error e => exact h
  | ok a => exact h

end EvalError

open EvalError (IsValueFault)

-- ---------------------------------------------------------------------------
-- Conversions and operators
-- ---------------------------------------------------------------------------

theorem truncateDecimal_outcome :
    Outcome (truncateDecimal x) (fun _ => True) IsValueFault := by
  unfold truncateDecimal
  split <;> simp

theorem DataType.requireNumeric_eq_ok {type : DataType} {u : Unit} :
    type.requireNumeric = .ok u ↔ type = .integer ∨ type = .decimal := by
  cases type <;> simp [requireNumeric, isNumeric]

theorem readIntegerValue_outcome :
    Outcome (readIntegerValue text) (fun v => v.dataType? = some .integer) IsValueFault := by
  unfold readIntegerValue
  split <;> simp [Value.dataType?]

theorem readDecimalValue_outcome :
    Outcome (readDecimalValue text) (fun v => v.dataType? = some .decimal) IsValueFault := by
  unfold readDecimalValue
  split <;> simp [Value.dataType?]

theorem Cast.run_outcome {cast : Cast} (h : Cast.between source target = .ok cast)
    (hv : v.dataType? = some source) :
    Outcome (cast.run v) (fun w => w.dataType? = some target) IsValueFault := by
  unfold Cast.between at h
  split at h
  case h_7 =>
    split at h
    · next heq => cases h; exact heq ▸ hv
    · cases h
  all_goals
    cases h
    cases v <;> simp [Value.dataType?] at hv
  · exact rfl
  · exact rfl
  · exact truncateDecimal_outcome.map fun _ _ => rfl
  · exact rfl
  · exact readIntegerValue_outcome
  · exact readDecimalValue_outcome

theorem Comparison.evaluate_ok {op : Comparison} (h : op.isDefined type = true)
    (ha : a.dataType? = some type) (hb : b.dataType? = some type) :
    ∃ t, op.evaluate a b = .ok t := by
  cases a <;> simp [Value.dataType?] at ha <;> subst ha
  case timestamp => simp [isDefined] at h
  all_goals
    cases b <;> simp [Value.dataType?] at hb
    exact ⟨_, rfl⟩

theorem NumericOp.fit_outcome {op : NumericOp} :
    Outcome (op.fit n) (fun _ => True) IsValueFault := by
  unfold fit
  split <;> simp

theorem NumericOp.integer_outcome {op : NumericOp} :
    Outcome (op.integer a b) (fun _ => True) IsValueFault := by
  cases op with
  | divide =>
    simp only [integer]
    split
    · simp
    · exact fit_outcome
  | modulo =>
    simp only [integer]
    split
    · simp
    · exact fit_outcome.bind fun _ _ => fit_outcome
  | _ => exact fit_outcome

theorem NumericOp.check_numeric {op : NumericOp} (h : op.check type = .ok u) :
    type = .integer ∨ type = .decimal := by
  obtain ⟨_, hnumeric, -⟩ := bind_eq_ok.mp h
  exact DataType.requireNumeric_eq_ok.mp hnumeric

theorem NumericOp.evaluate_outcome {op : NumericOp} (h : op.check type = .ok u)
    (ha : a.dataType? = some type) (hb : b.dataType? = some type) :
    Outcome (op.evaluate a b) (fun v => v.dataType? = some type) IsValueFault := by
  rcases check_numeric h with rfl | rfl
  · cases a <;> simp [Value.dataType?] at ha
    cases b <;> simp [Value.dataType?] at hb
    exact integer_outcome.map fun _ _ => rfl
  · cases a <;> simp [Value.dataType?] at ha
    cases b <;> simp [Value.dataType?] at hb
    exact rfl

theorem UnaryOp.fit_outcome {op : UnaryOp} :
    Outcome (op.fit n) (fun _ => True) IsValueFault := by
  unfold fit
  split <;> simp

theorem UnaryOp.integer_outcome {op : UnaryOp} :
    Outcome (op.integer i) (fun _ => True) IsValueFault := by
  cases op with
  | abs => exact fit_outcome
  | negate => exact fit_outcome
  | sqrt =>
    simp only [integer]
    split
    · simp
    · exact truncateDecimal_outcome
  | _ => simp [integer]

theorem UnaryOp.evaluate_outcome {op : UnaryOp} (h : op.check type = .ok u)
    (hv : v.dataType? = some type) :
    Outcome (op.evaluate v) (fun w => w.dataType? = some type) IsValueFault := by
  obtain ⟨_, hnumeric, -⟩ := bind_eq_ok.mp h
  rcases DataType.requireNumeric_eq_ok.mp hnumeric with rfl | rfl
  · cases v <;> simp [Value.dataType?] at hv
    exact integer_outcome.map fun _ _ => rfl
  · cases v <;> simp [Value.dataType?] at hv
    exact rfl

-- ---------------------------------------------------------------------------
-- The builders
-- ---------------------------------------------------------------------------

namespace Compiled

/-- On a row that conforms to the fields, the field of the expression admits
what it returns, and it fails only for reasons that lie in the values. -/
def Sound (fields : List Field) (compiled : Compiled) : Prop :=
  ∀ row : Row, row.Conforms fields →
    Outcome (compiled.eval row) compiled.field.Admits IsValueFault

section
variable {fields : List Field} {left right source alternative whenTrue whenFalse : Compiled}

theorem constant_sound {field : Field} (h : constant field value = .ok compiled) :
    compiled.Sound fields := by
  simp only [constant, throw_unless_eq_ok, pure_eq_ok] at h
  obtain ⟨hnull, hfits, rfl⟩ := h
  intro row _
  simp only [Outcome.ok_iff]
  rw [Bool.and_eq_true, Bool.not_eq_true', bne_iff_ne, not_and, not_not] at hfits
  cases value with
  | null => simpa [Field.admits_null, Value.isNull] using hnull
  | integer i =>
    cases htype : field.dataType <;> simp_all [Field.admits_iff, Value.isNull, Value.dataType?]
  | _ => exact Field.admits_of_dataType (by simpa [Value.isNull] using hfits)

theorem reference_sound (h : reference fields urn = .ok compiled) : compiled.Sound fields := by
  obtain ⟨index, -, h⟩ := bind_eq_ok.mp h
  split at h
  · simp at h
  · next field hfield =>
    cases h
    intro row hrow
    have hlt : index < fields.length := (List.getElem?_eq_some_iff.mp hfield).1
    have hwide : index < row.length := hrow.length_eq ▸ hlt
    simp only [hrow.length_eq, if_true, List.getElem?_eq_getElem hwide, Option.getD_some,
      Outcome.ok_iff]
    rw [List.getElem?_eq_getElem hlt, Option.some.injEq] at hfield
    exact hfield ▸ List.Forall₂.get hrow hlt hwide

theorem cast_sound (hs : source.Sound fields) (h : cast source target = .ok compiled) :
    compiled.Sound fields := by
  simp only [cast, bind_eq_ok, CompileError.within_eq_ok, pure_eq_ok] at h
  obtain ⟨conversion, hcast, rfl⟩ := h
  intro row hrow
  refine (hs row hrow).bind fun v hv => ?_
  cases v with
  | null =>
    have hreq : source.field.required = false := Field.admits_null.mp hv
    exact Field.admits_null.mpr hreq
  | _ =>
    refine EvalError.within_outcome (Outcome.imp ?_ fun _ => Field.admits_of_dataType)
    exact Cast.run_outcome hcast (hv.dataType (by simp))

theorem sameType_eq_ok : sameType left right = .ok type ↔
    left.field.dataType = type ∧ right.field.dataType = type := by
  unfold sameType
  split
  · next heq => simp [heq]
  · next hne =>
    simp only [reduceCtorEq, false_iff, not_and]
    exact fun hl hr => hne (hl.trans hr.symm)

theorem condition_sound (hl : left.Sound fields) (hr : right.Sound fields)
    (h : condition op left right = .ok compiled) : compiled.Sound fields := by
  simp only [condition, bind_eq_ok, CompileError.within_eq_ok, pure_eq_ok, sameType_eq_ok] at h
  obtain ⟨type, ⟨hlt, hrt⟩, _, hop, rfl⟩ := h
  have hdefined : op.isDefined type = true := by
    unfold Comparison.check at hop
    split at hop
    · assumption
    · cases hop
  intro row hrow
  refine (hl row hrow).bind fun a ha => (hr row hrow).bind fun b hb => ?_
  split
  · exact Field.admits_of_dataType rfl
  · next hnull =>
    simp only [Bool.or_eq_true, Value.isNull_iff, not_or] at hnull
    obtain ⟨t, ht⟩ :=
      op.evaluate_ok hdefined (hlt ▸ ha.dataType hnull.1) (hrt ▸ hb.dataType hnull.2)
    rw [ht]
    exact Field.admits_of_dataType rfl

theorem requireBoolean_eq_ok {operand : Compiled} {u : Unit} :
    requireBoolean operand = .ok u ↔
      operand.field.dataType = .boolean ∧ operand.field.required = true := by
  unfold requireBoolean
  split
  · next h => simp [h]
  · next h =>
    rw [not_not] at h
    split <;> simp_all

theorem truth_outcome {operand : Compiled} (hs : operand.Sound fields)
    (hrow : Row.Conforms fields row) (hb : requireBoolean operand = .ok u) :
    Outcome (operand.eval row >>= truth stage) (fun _ => True) IsValueFault := by
  obtain ⟨htype, hreq⟩ := requireBoolean_eq_ok.mp hb
  refine (hs row hrow).bind fun v hv => ?_
  have hbool := hv.dataType_of_required hreq
  rw [htype] at hbool
  cases v <;> simp [Value.dataType?] at hbool
  simp [truth, Value.asBoolean?]

theorem logical_sound (hl : left.Sound fields) (hr : right.Sound fields)
    (h : logical op left right = .ok compiled) : compiled.Sound fields := by
  simp only [logical, bind_eq_ok, CompileError.within_eq_ok, pure_eq_ok] at h
  obtain ⟨_, hlb, _, hrb, rfl⟩ := h
  intro row hrow
  simp only [← bind_assoc]
  refine (truth_outcome hl hrow hlb).bind fun a _ => ?_
  split
  · exact Field.admits_of_dataType rfl
  · exact Field.admits_of_dataType rfl
  · exact (truth_outcome hr hrow hrb).bind fun _ _ => Field.admits_of_dataType rfl

theorem numeric_sound (hl : left.Sound fields) (hr : right.Sound fields)
    (h : numeric op left right = .ok compiled) : compiled.Sound fields := by
  simp only [numeric, bind_eq_ok, CompileError.within_eq_ok, pure_eq_ok, sameType_eq_ok] at h
  obtain ⟨type, ⟨hlt, hrt⟩, _, hop, rfl⟩ := h
  intro row hrow
  refine (hl row hrow).bind fun a ha => (hr row hrow).bind fun b hb => ?_
  split
  · -- the result is null only where an operand is, which then is not required
    next hnull =>
    refine Field.admits_null.mpr (Bool.and_eq_false_iff.mpr ?_)
    rcases Bool.or_eq_true_iff.mp hnull with hnull | hnull
    · exact .inl (Field.admits_null.mp (Value.isNull_iff.mp hnull ▸ ha))
    · exact .inr (Field.admits_null.mp (Value.isNull_iff.mp hnull ▸ hb))
  · next hnull =>
    simp only [Bool.or_eq_true, Value.isNull_iff, not_or] at hnull
    refine EvalError.within_outcome (Outcome.imp ?_ fun _ => Field.admits_of_dataType)
    exact NumericOp.evaluate_outcome hop (hlt ▸ ha.dataType hnull.1) (hrt ▸ hb.dataType hnull.2)

theorem unary_sound {operand : Compiled} (hs : operand.Sound fields)
    (h : unary op operand = .ok compiled) : compiled.Sound fields := by
  simp only [unary, bind_eq_ok, CompileError.within_eq_ok, pure_eq_ok] at h
  obtain ⟨_, hop, rfl⟩ := h
  intro row hrow
  refine (hs row hrow).bind fun v hv => ?_
  cases v with
  | null =>
    have hreq : operand.field.required = false := Field.admits_null.mp hv
    exact Field.admits_null.mpr hreq
  | _ =>
    refine EvalError.within_outcome (Outcome.imp ?_ fun _ => Field.admits_of_dataType)
    exact UnaryOp.evaluate_outcome hop (hv.dataType (by simp))

theorem nvl_sound (hs : source.Sound fields) (ha : alternative.Sound fields)
    (h : nvl source alternative = .ok compiled) : compiled.Sound fields := by
  simp only [nvl, throw_unless_eq_ok, bind_eq_ok, CompileError.within_eq_ok, sameType_eq_ok] at h
  obtain ⟨hreq, type, ⟨hst, hat⟩, h⟩ := h
  split at h
  · cases h
    exact hs
  · cases h
    intro row hrow
    refine (hs row hrow).bind fun v hv => ?_
    cases v with
    | null =>
      rw [Bool.not_eq_true', Bool.not_eq_false] at hreq
      refine (ha row hrow).imp fun w hw => ?_
      exact Field.admits_of_dataType (hat ▸ hw.dataType_of_required hreq)
    | _ => exact Field.admits_of_dataType (hst ▸ hv.dataType (by simp))

theorem difference_eq_none {a b : Field} (h : difference a b = none) :
    a.dataType = b.dataType ∧ a.required = b.required := by
  unfold difference at h
  repeat' split at h
  all_goals simp_all

theorem selector_sound {choice : Compiled} (hc : choice.Sound fields)
    (ht : whenTrue.Sound fields) (hf : whenFalse.Sound fields)
    (h : selector choice whenTrue whenFalse = .ok compiled) : compiled.Sound fields := by
  simp only [selector, bind_eq_ok, CompileError.within_eq_ok] at h
  obtain ⟨_, hbool, h⟩ := h
  split at h
  · obtain ⟨_, h, -⟩ := bind_eq_ok.mp h
    simp at h
  · next hsame =>
    obtain ⟨htype, hreq⟩ := difference_eq_none (Option.eq_none_iff_forall_ne_some.mpr hsame)
    cases h
    intro row hrow
    simp only [← bind_assoc]
    refine (truth_outcome hc hrow hbool).bind fun t _ => ?_
    split
    · exact (ht row hrow).imp fun v hv => hv.congr rfl rfl
    · exact (hf row hrow).imp fun v hv => hv.congr htype.symm hreq.symm

end

end Compiled

-- ---------------------------------------------------------------------------
-- Expressions
-- ---------------------------------------------------------------------------

theorem Expr.compile_sound {expr : Expr} (h : expr.compile fields = .ok compiled) :
    compiled.Sound fields := by
  induction expr generalizing compiled with
  | constant field value => exact Compiled.constant_sound h
  | reference urn => exact Compiled.reference_sound h
  | cast source target ih =>
    simp only [compile, bind_eq_ok, CompileError.within_eq_ok] at h
    obtain ⟨s, hs, h⟩ := h
    exact Compiled.cast_sound (ih hs) h
  | condition op left right ihl ihr =>
    simp only [compile, bind_eq_ok, CompileError.within_eq_ok] at h
    obtain ⟨l, hl, r, hr, h⟩ := h
    exact Compiled.condition_sound (ihl hl) (ihr hr) h
  | logical op left right ihl ihr =>
    simp only [compile, bind_eq_ok, CompileError.within_eq_ok] at h
    obtain ⟨l, hl, r, hr, h⟩ := h
    exact Compiled.logical_sound (ihl hl) (ihr hr) h
  | numeric op left right ihl ihr =>
    simp only [compile, bind_eq_ok, CompileError.within_eq_ok] at h
    obtain ⟨l, hl, r, hr, h⟩ := h
    exact Compiled.numeric_sound (ihl hl) (ihr hr) h
  | unary op operand ih =>
    simp only [compile, bind_eq_ok, CompileError.within_eq_ok] at h
    obtain ⟨s, hs, h⟩ := h
    exact Compiled.unary_sound (ih hs) h
  | nvl source alternative ihs iha =>
    simp only [compile, bind_eq_ok, CompileError.within_eq_ok] at h
    obtain ⟨s, hs, a, ha, h⟩ := h
    exact Compiled.nvl_sound (ihs hs) (iha ha) h
  | selector choice whenTrue whenFalse ihc iht ihf =>
    simp only [compile, bind_eq_ok, CompileError.within_eq_ok] at h
    obtain ⟨c, hc, t, ht, f, hf, h⟩ := h
    exact Compiled.selector_sound (ihc hc) (iht ht) (ihf hf) h

theorem Column.compileAll_sound {fields : List Field} {columns : List Column}
    {compiled : List Compiled} (h : compileAll fields index columns = .ok compiled) :
    ∀ column ∈ compiled, column.Sound fields := by
  induction columns generalizing index compiled with
  | nil =>
    cases h
    exact fun _ hmem => absurd hmem List.not_mem_nil
  | cons column rest ih =>
    simp only [compileAll, bind_eq_ok, pure_eq_ok] at h
    obtain ⟨first, hfirst, others, hothers, rfl⟩ := h
    refine List.forall_mem_cons.mpr ⟨?_, ih hothers⟩
    simp only [compile, bind_eq_ok, CompileError.within_eq_ok] at hfirst
    obtain ⟨inner, hinner, hfirst⟩ := hfirst
    have hsound := Expr.compile_sound hinner
    split at hfirst
    · cases hfirst
      exact fun row hrow => (hsound row hrow).imp fun _ hv => hv.congr rfl rfl
    · cases hfirst
      exact hsound

/-- What a compiled expression gives for a row that conforms to the input
fields: a value that passes the check of its field, so one of its data type or,
unless the field is required, null; or an error that lies in the values. -/
theorem Expr.eval_admitted_or_valueFault {expr : Expr} {row : Row}
    (h : expr.compile fields = .ok compiled) (hrow : row.Conforms fields) :
    (∃ v, compiled.eval row = .ok v ∧ compiled.field.check v = .ok () ∧
        (v.dataType? = some compiled.field.dataType ∨
          v = .null ∧ compiled.field.required = false)) ∨
      ∃ e, compiled.eval row = .error e ∧ e.IsValueFault := by
  rcases (compile_sound h row hrow).cases with ⟨v, hv, hfits⟩ | ⟨e, he, hfault⟩
  · exact .inl ⟨v, hv, hfits, (Field.admits_iff.mp hfits).symm⟩
  · exact .inr ⟨e, he, hfault⟩

theorem Expr.eval_quotient_or_valueFault :
    ∃ compiled,
      (Expr.nvl (.numeric .divide (.reference "a") (.reference "b"))
        (.constant (.plain "k" .integer true) (.integer 0))).compile
          [.plain "a" .integer true, .plain "b" .integer false] = .ok compiled ∧
      Row.Conforms [.plain "a" .integer true, .plain "b" .integer false]
        [.integer 7, .integer 0] ∧
      ((∃ v, compiled.eval [.integer 7, .integer 0] = .ok v ∧ compiled.field.check v = .ok () ∧
          (v.dataType? = some compiled.field.dataType ∨
            v = .null ∧ compiled.field.required = false)) ∨
        ∃ e, compiled.eval [.integer 7, .integer 0] = .error e ∧ e.IsValueFault) := by
  obtain ⟨compiled, hc⟩ : ∃ compiled,
      (Expr.nvl (.numeric .divide (.reference "a") (.reference "b"))
        (.constant (.plain "k" .integer true) (.integer 0))).compile
          [.plain "a" .integer true, .plain "b" .integer false] = .ok compiled := ⟨_, rfl⟩
  have hrow : Row.Conforms [.plain "a" .integer true, .plain "b" .integer false]
      [.integer 7, .integer 0] := .cons rfl (.cons rfl .nil)
  exact ⟨compiled, hc, hrow, Expr.eval_admitted_or_valueFault hc hrow⟩

end SeriesQuery
