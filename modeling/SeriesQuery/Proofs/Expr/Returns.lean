import SeriesQuery.Proofs.Expr.Soundness

/-!
# What a node returns

For each builder of `Compiled`, what evaluating the node returns, said by what
evaluating its operands returns; and the same for the expressions that are
compiled by it. A right operand is evaluated only where the left one has
returned, the right operand of `and` and `or` only where the left one does not
decide, and of the branches of a selector only the selected one.
-/

namespace SeriesQuery

/-- The truth value of the left operand that makes up the answer. -/
def LogicalOp.deciding : LogicalOp → Bool
  | .and => false
  | .or => true

namespace Compiled

variable {source left right operand alternative choice whenTrue whenFalse compiled : Compiled}

theorem constant_returns {field : Field} (h : constant field value = .ok compiled)
    (htype : field.dataType ≠ .decimal) :
    compiled.field = field ∧ compiled.eval row = .ok value := by
  simp only [constant, throw_unless_eq_ok, pure_eq_ok] at h
  obtain ⟨-, -, rfl⟩ := h
  cases hfield : field.dataType <;> simp_all

theorem reference_returns (h : reference fields urn = .ok compiled)
    (hwidth : row.length = fields.length) :
    ∃ index value, fields.findIdx? (·.urn = urn) = some index ∧
      fields[index]? = some compiled.field ∧ row[index]? = some value ∧
      compiled.eval row = .ok value := by
  obtain ⟨index, hindex, h⟩ := bind_eq_ok.mp h
  have hfound : fields.findIdx? (·.urn = urn) = some index := by
    unfold Field.indexOf at hindex
    split at hindex
    · next hfound => exact Except.ok.inj hindex ▸ hfound
    · cases hindex
  split at h
  · cases h
  · next field hfield =>
    cases h
    have hlt : index < row.length := hwidth ▸ (List.getElem?_eq_some_iff.mp hfield).1
    refine ⟨index, row[index], hfound, hfield, List.getElem?_eq_getElem hlt, ?_⟩
    simp [hwidth, List.getElem?_eq_getElem hlt]

theorem cast_returns (h : cast source target = .ok compiled) :
    compiled.eval row = .ok v ↔ ∃ a, source.eval row = .ok a ∧
      if a = .null then v = .null
      else ∃ conversion, Cast.between source.field.dataType target = .ok conversion ∧
        conversion.run a = .ok v := by
  simp only [cast, bind_eq_ok, CompileError.within_eq_ok, pure_eq_ok] at h
  obtain ⟨conversion, hcast, rfl⟩ := h
  simp only [bind_eq_ok, hcast]
  refine exists_congr fun a => and_congr_right fun _ => ?_
  cases a <;> simp [pure_eq_ok, @eq_comm _ v]

theorem condition_returns (h : condition op left right = .ok compiled) :
    compiled.eval row = .ok v ↔ ∃ a, left.eval row = .ok a ∧ ∃ b, right.eval row = .ok b ∧
      if a = .null ∨ b = .null then v = .boolean false
      else ∃ t, op.evaluate a b = .ok t ∧ v = .boolean t := by
  simp only [condition, bind_eq_ok, CompileError.within_eq_ok, pure_eq_ok] at h
  obtain ⟨type, -, -, -, rfl⟩ := h
  simp only [bind_eq_ok]
  refine exists_congr fun a => and_congr_right fun _ => exists_congr fun b =>
    and_congr_right fun _ => ?_
  simp only [Bool.or_eq_true, Value.isNull_iff]
  split <;> simp only [bind_eq_ok, EvalError.within_eq_ok, pure_eq_ok, @eq_comm _ v]

theorem bind_truth_eq_ok {x : Except EvalError Value} {f : Bool → Except EvalError Value} :
    (x >>= fun a => truth stage a >>= f) = .ok v ↔ ∃ t, x = .ok (.boolean t) ∧ f t = .ok v := by
  have htruth {a : Value} {t : Bool} : truth stage a = .ok t ↔ a = .boolean t := by
    cases a <;> simp [truth, Value.asBoolean?]
  simp only [bind_eq_ok, htruth]
  constructor
  · rintro ⟨-, hx, t, rfl, hv⟩
    exact ⟨t, hx, hv⟩
  · rintro ⟨t, hx, hv⟩
    exact ⟨_, hx, t, rfl, hv⟩

theorem logical_returns (h : logical op left right = .ok compiled) :
    compiled.eval row = .ok v ↔ ∃ t, left.eval row = .ok (.boolean t) ∧
      if t = op.deciding then v = .boolean t
      else ∃ u, right.eval row = .ok (.boolean u) ∧ v = .boolean u := by
  simp only [logical, bind_eq_ok, CompileError.within_eq_ok, pure_eq_ok] at h
  obtain ⟨-, -, -, -, rfl⟩ := h
  simp only [bind_truth_eq_ok]
  refine exists_congr fun t => and_congr_right fun _ => ?_
  cases op <;> cases t <;>
    simp only [LogicalOp.deciding, bind_truth_eq_ok, pure_eq_ok, if_true, Bool.true_eq_false,
      Bool.false_eq_true, if_false, @eq_comm _ v]

theorem numeric_returns (h : numeric op left right = .ok compiled) :
    compiled.eval row = .ok v ↔ ∃ a, left.eval row = .ok a ∧ ∃ b, right.eval row = .ok b ∧
      if a = .null ∨ b = .null then v = .null else op.evaluate a b = .ok v := by
  simp only [numeric, bind_eq_ok, CompileError.within_eq_ok, pure_eq_ok] at h
  obtain ⟨type, -, -, -, rfl⟩ := h
  simp only [bind_eq_ok]
  refine exists_congr fun a => and_congr_right fun _ => exists_congr fun b =>
    and_congr_right fun _ => ?_
  simp only [Bool.or_eq_true, Value.isNull_iff]
  split <;> simp only [EvalError.within_eq_ok, pure_eq_ok, @eq_comm _ v]

theorem unary_returns (h : unary op operand = .ok compiled) :
    compiled.eval row = .ok v ↔ ∃ a, operand.eval row = .ok a ∧
      if a = .null then v = .null else op.evaluate a = .ok v := by
  simp only [unary, bind_eq_ok, CompileError.within_eq_ok, pure_eq_ok] at h
  obtain ⟨-, -, rfl⟩ := h
  simp only [bind_eq_ok]
  refine exists_congr fun a => and_congr_right fun _ => ?_
  cases a <;> simp [pure_eq_ok, @eq_comm _ v]

theorem nvl_returns (hsound : source.Sound fields) (hrow : Row.Conforms fields row)
    (h : nvl source alternative = .ok compiled) :
    compiled.eval row = .ok v ↔ ∃ a, source.eval row = .ok a ∧
      if a = .null then alternative.eval row = .ok v else v = a := by
  simp only [nvl, throw_unless_eq_ok, bind_eq_ok, CompileError.within_eq_ok] at h
  obtain ⟨-, type, -, h⟩ := h
  split at h
  · next hrequired =>
    cases h
    have hnull : ∀ a, source.eval row = .ok a → a ≠ .null := by
      rintro _ ha rfl
      have hadmits := hsound row hrow
      simp [ha, Field.admits_null, hrequired] at hadmits
    constructor
    · intro hv
      exact ⟨v, hv, by rw [if_neg (hnull v hv)]⟩
    · rintro ⟨a, ha, hv⟩
      rw [if_neg (hnull a ha)] at hv
      exact hv ▸ ha
  · cases h
    simp only [bind_eq_ok]
    refine exists_congr fun a => and_congr_right fun _ => ?_
    cases a <;> simp [pure_eq_ok, @eq_comm _ v]

theorem selector_returns (h : selector choice whenTrue whenFalse = .ok compiled) :
    compiled.eval row = .ok v ↔ ∃ t, choice.eval row = .ok (.boolean t) ∧
      if t = true then whenTrue.eval row = .ok v else whenFalse.eval row = .ok v := by
  simp only [selector, bind_eq_ok, CompileError.within_eq_ok] at h
  obtain ⟨-, -, h⟩ := h
  split at h
  · obtain ⟨_, h, -⟩ := bind_eq_ok.mp h
    simp at h
  · cases h
    simp only [bind_truth_eq_ok]
    refine exists_congr fun t => and_congr_right fun _ => ?_
    split <;> exact Iff.rfl

end Compiled

-- ---------------------------------------------------------------------------
-- Expressions
-- ---------------------------------------------------------------------------

/-- The expression compiles, and evaluating it returns the value. -/
def Expr.Gives (fields : List Field) (row : Row) (expr : Expr) (value : Value) : Prop :=
  ∃ compiled, expr.compile fields = .ok compiled ∧ compiled.eval row = .ok value

namespace Expr.Gives

open Compiled

variable {source left right operand alternative choice whenTrue whenFalse : Expr}

theorem unique {expr : Expr} (hv : expr.Gives fields row v) (hw : expr.Gives fields row w) :
    v = w := by
  obtain ⟨c, hc, hv⟩ := hv
  obtain ⟨d, hd, hw⟩ := hw
  cases hc.symm.trans hd
  exact Except.ok.inj (hv.symm.trans hw)

theorem cast (h : (Expr.cast source target).Gives fields row v) :
    ∃ a, source.Gives fields row a ∧
      if a = .null then v = .null
      else ∃ type conversion, Cast.between type target = .ok conversion ∧
        conversion.run a = .ok v := by
  obtain ⟨compiled, hc, hv⟩ := h
  simp only [compile, bind_eq_ok, CompileError.within_eq_ok] at hc
  obtain ⟨s, hs, hnode⟩ := hc
  obtain ⟨a, ha, hvalue⟩ := (cast_returns hnode).mp hv
  refine ⟨a, ⟨s, hs, ha⟩, ?_⟩
  split at hvalue
  · next hnull => rwa [if_pos hnull]
  · next hnull =>
    rw [if_neg hnull]
    exact ⟨s.field.dataType, hvalue⟩

theorem condition (h : (Expr.condition op left right).Gives fields row v) :
    ∃ a, left.Gives fields row a ∧ ∃ b, right.Gives fields row b ∧
      if a = .null ∨ b = .null then v = .boolean false
      else ∃ t, op.evaluate a b = .ok t ∧ v = .boolean t := by
  obtain ⟨compiled, hc, hv⟩ := h
  simp only [compile, bind_eq_ok, CompileError.within_eq_ok] at hc
  obtain ⟨l, hl, r, hr, hnode⟩ := hc
  obtain ⟨a, ha, b, hb, hvalue⟩ := (condition_returns hnode).mp hv
  exact ⟨a, ⟨l, hl, ha⟩, b, ⟨r, hr, hb⟩, hvalue⟩

theorem logical (h : (Expr.logical op left right).Gives fields row v) :
    ∃ t, left.Gives fields row (.boolean t) ∧
      if t = op.deciding then v = .boolean t
      else ∃ u, right.Gives fields row (.boolean u) ∧ v = .boolean u := by
  obtain ⟨compiled, hc, hv⟩ := h
  simp only [compile, bind_eq_ok, CompileError.within_eq_ok] at hc
  obtain ⟨l, hl, r, hr, hnode⟩ := hc
  obtain ⟨t, ht, hvalue⟩ := (logical_returns hnode).mp hv
  refine ⟨t, ⟨l, hl, ht⟩, ?_⟩
  split at hvalue
  · next hdecides => rwa [if_pos hdecides]
  · next hopen =>
    obtain ⟨u, hu, hvalue⟩ := hvalue
    rw [if_neg hopen]
    exact ⟨u, ⟨r, hr, hu⟩, hvalue⟩

theorem numeric (h : (Expr.numeric op left right).Gives fields row v) :
    ∃ a, left.Gives fields row a ∧ ∃ b, right.Gives fields row b ∧
      if a = .null ∨ b = .null then v = .null else op.evaluate a b = .ok v := by
  obtain ⟨compiled, hc, hv⟩ := h
  simp only [compile, bind_eq_ok, CompileError.within_eq_ok] at hc
  obtain ⟨l, hl, r, hr, hnode⟩ := hc
  obtain ⟨a, ha, b, hb, hvalue⟩ := (numeric_returns hnode).mp hv
  exact ⟨a, ⟨l, hl, ha⟩, b, ⟨r, hr, hb⟩, hvalue⟩

theorem unary (h : (Expr.unary op operand).Gives fields row v) :
    ∃ a, operand.Gives fields row a ∧ if a = .null then v = .null else op.evaluate a = .ok v := by
  obtain ⟨compiled, hc, hv⟩ := h
  simp only [compile, bind_eq_ok, CompileError.within_eq_ok] at hc
  obtain ⟨o, ho, hnode⟩ := hc
  obtain ⟨a, ha, hvalue⟩ := (unary_returns hnode).mp hv
  exact ⟨a, ⟨o, ho, ha⟩, hvalue⟩

theorem nvl (h : (Expr.nvl source alternative).Gives fields row v)
    (hrow : Row.Conforms fields row) :
    ∃ a, source.Gives fields row a ∧
      if a = .null then alternative.Gives fields row v else v = a := by
  obtain ⟨compiled, hc, hv⟩ := h
  simp only [compile, bind_eq_ok, CompileError.within_eq_ok] at hc
  obtain ⟨s, hs, r, hr, hnode⟩ := hc
  obtain ⟨a, ha, hvalue⟩ := (nvl_returns (compile_sound hs) hrow hnode).mp hv
  refine ⟨a, ⟨s, hs, ha⟩, ?_⟩
  split at hvalue
  · next hnull =>
    rw [if_pos hnull]
    exact ⟨r, hr, hvalue⟩
  · next hnull => rwa [if_neg hnull]

theorem selector (h : (Expr.selector choice whenTrue whenFalse).Gives fields row v) :
    ∃ t, choice.Gives fields row (.boolean t) ∧
      if t = true then whenTrue.Gives fields row v else whenFalse.Gives fields row v := by
  obtain ⟨compiled, hc, hv⟩ := h
  simp only [compile, bind_eq_ok, CompileError.within_eq_ok] at hc
  obtain ⟨c, hc, y, hy, n, hn, hnode⟩ := hc
  obtain ⟨t, ht, hvalue⟩ := (selector_returns hnode).mp hv
  refine ⟨t, ⟨c, hc, ht⟩, ?_⟩
  cases t with
  | true => exact ⟨y, hy, hvalue⟩
  | false => exact ⟨n, hn, hvalue⟩

end Expr.Gives

end SeriesQuery
