import SeriesQuery.Proofs.Expr.Soundness
import SeriesQuery.Proofs.Stream.Chronological
import SeriesQuery.Resample.GapFill
import SeriesQuery.Rowset.Derivation
import SeriesQuery.Source.Reduce

/-!
# Steps without order faults

Of all the steps that a query takes on its values only an interpolation can find
that timestamps are out of order, and it does not where the value asked for lies
between the samples.
-/

namespace SeriesQuery

-- ---------------------------------------------------------------------------
-- Steps without order faults
-- ---------------------------------------------------------------------------

/-- The step does not fail with an order fault. -/
def Faultless (x : Except EvalError α) : Prop :=
  Outcome x (fun _ => True) fun e => ¬ e.IsOrderFault

theorem faultless_pure {a : α} : Faultless (pure a) := trivial

theorem Faultless.bind {x : Except EvalError α} {f : α → Except EvalError β} (h : Faultless x)
    (hf : ∀ a, Faultless (f a)) : Faultless (x >>= f) :=
  Outcome.bind h fun a _ => hf a

theorem Faultless.map {x : Except EvalError α} {f : α → β} (h : Faultless x) :
    Faultless (x.map f) :=
  Outcome.map h fun _ _ => trivial

theorem Faultless.within {x : Except EvalError α} (h : Faultless x) :
    Faultless (EvalError.within stage x) := by
  cases x with
  | error e => exact h
  | ok a => trivial

theorem EvalError.IsValueFault.not_isOrderFault {e : EvalError} (h : e.IsValueFault) :
    ¬ e.IsOrderFault := by
  unfold IsValueFault at h
  unfold IsOrderFault
  cases hcause : e.cause <;> simp_all

theorem Outcome.faultless {x : Except EvalError α} {Q : α → Prop}
    (h : Outcome x Q EvalError.IsValueFault) : Faultless x :=
  h.mono (fun _ _ => trivial) fun _ he => he.not_isOrderFault

theorem Faultless.evaluating {x : Except EvalError (Sample α)} (h : Faultless x)
    (ht : ∀ a, x = .ok a → a.timestamp = t) :
    Outcome (QueryError.evaluating x) (fun a => a.timestamp = t) fun e => ¬ e.IsOrderFault := by
  cases x with
  | error e => exact h
  | ok a => exact ht a rfl

theorem Faultless.foldlM {step : σ → α → Except EvalError σ} {items : List α} {start : σ}
    (h : ∀ s a, Faultless (step s a)) : Faultless (items.foldlM step start) :=
  Outcome.foldlM (fun s a _ _ => h s a) trivial

theorem Faultless.mapM {f : α → Except EvalError β} {items : List α}
    (h : ∀ a ∈ items, Faultless (f a)) : Faultless (items.mapM f) :=
  (Outcome.mapM h).imp fun _ _ => trivial

theorem Faultless.forM {f : α → Except EvalError Unit} {items : List α}
    (h : ∀ a ∈ items, Faultless (f a)) : Faultless (items.forM f) := by
  induction items with
  | nil => trivial
  | cons a rest ih =>
    obtain ⟨ha, hrest⟩ := List.forall_mem_cons.mp h
    exact ha.bind fun _ => ih hrest

namespace DataType

theorem faultless_toDecimal {type : DataType} : Faultless (type.toDecimal value) := by
  unfold toDecimal
  split <;> first | trivial | exact id

theorem faultless_ofDecimal {type : DataType} : Faultless (type.ofDecimal x) := by
  unfold ofDecimal
  split
  · trivial
  · exact (Outcome.faultless truncateDecimal_outcome).map
  · exact id

theorem faultless_validate {type : DataType} : Faultless (type.validate value) := by
  unfold validate
  split
  · trivial
  · exact id

end DataType

open DataType (faultless_toDecimal faultless_ofDecimal faultless_validate)

theorem Field.faultless_check {field : Field} : Faultless (field.check value) := by
  unfold check
  split
  · split
    · exact id
    · trivial
  · exact faultless_validate

theorem faultless_interpolate {first last : Sample Value} (hfirst : first.timestamp ≤ target)
    (hlast : target ≤ last.timestamp) : Faultless (interpolate type first last target) := by
  have hinside : ¬ (target < first.timestamp ∨ last.timestamp < target) := by grind
  unfold interpolate
  rw [if_neg hinside]
  refine faultless_toDecimal.bind fun _ => faultless_toDecimal.bind fun _ => ?_
  split
  · exact faultless_ofDecimal
  · exact faultless_ofDecimal

theorem GapFill.faultless_fillSample {mode : FillMode} {before after : Sample Row}
    (hbefore : before.timestamp ≤ boundary) (hafter : boundary ≤ after.timestamp) :
    Faultless (fillSample mode type before after boundary) := by
  cases mode with
  | forwardFill => trivial
  | linear => exact Faultless.map (faultless_interpolate hbefore hafter)

-- ---------------------------------------------------------------------------
-- Derivations
-- ---------------------------------------------------------------------------

namespace Derivation

def AlwaysFaultless (derivation : Derivation) : Prop :=
  ∀ previous current, Faultless (derivation previous current).2

theorem faultless_subtract : Faultless (subtract type current previous) := by
  unfold subtract
  split
  · split
    · trivial
    · exact id
  · exact faultless_toDecimal.bind fun _ => faultless_toDecimal.bind fun _ =>
      faultless_ofDecimal

theorem faultless_delta {type : DataType} : (delta type).AlwaysFaultless := by
  intro previous current
  unfold delta
  split
  · trivial
  · exact faultless_subtract.map

theorem faultless_rate {type : DataType} : (rate type).AlwaysFaultless := by
  intro previous current
  unfold rate
  refine faultless_toDecimal.bind fun _ => ?_
  split
  · trivial
  · simp only
    split
    · exact id
    · exact faultless_toDecimal.bind fun _ => faultless_pure

theorem faultless_isLess : Faultless (isLess type a b) := by
  unfold isLess
  split
  · trivial
  · exact faultless_toDecimal.bind fun _ => faultless_toDecimal.bind fun _ => faultless_pure

theorem faultless_wrapped : Faultless (wrapped type maximum current previous) := by
  unfold wrapped
  refine faultless_subtract.bind fun _ => ?_
  split
  · split
    · trivial
    · exact id
  · exact faultless_toDecimal.bind fun _ => faultless_toDecimal.bind fun _ =>
      faultless_ofDecimal

theorem faultless_increment : Faultless (increment type maximum current previous) := by
  unfold increment
  refine faultless_isLess.bind fun _ => ?_
  split
  · split
    · exact faultless_wrapped
    · trivial
  · exact faultless_subtract

theorem faultless_counterDelta {type : DataType} :
    (counterDelta type maximum).AlwaysFaultless := by
  intro previous current
  have hnegative : Faultless (isNegative type current.value) :=
    faultless_toDecimal.bind fun _ => faultless_pure
  unfold counterDelta
  split
  · next e he =>
    rw [he] at hnegative
    exact hnegative
  · trivial
  · simp only
    split
    · trivial
    · exact faultless_increment.map

end Derivation

-- ---------------------------------------------------------------------------
-- Joins and reductions
-- ---------------------------------------------------------------------------

theorem Rowset.faultless_flatten : Faultless (flatten input widths slots) := by
  fun_induction flatten input widths slots with
  | case1 _ _ _ _ _ ih => exact ih.bind fun _ => faultless_pure
  | case2 _ _ _ _ _ ih => exact ih.bind fun _ => faultless_pure
  | case3 => exact id
  | case4 => trivial

namespace Accumulator

theorem faultless_order : Faultless (order type a b) := by
  unfold order
  split
  · trivial
  · exact faultless_toDecimal.bind fun _ => faultless_toDecimal.bind fun _ => faultless_pure

theorem faultless_add {accumulator : Accumulator} : Faultless (accumulator.add value) := by
  unfold add
  split
  · split
    · split
      · trivial
      · exact id
    · exact faultless_toDecimal.bind fun _ => faultless_pure
  · exact faultless_toDecimal.bind fun _ => faultless_pure
  · exact faultless_toDecimal.bind fun _ => faultless_pure
  · refine faultless_validate.bind fun _ => ?_
    split
    · trivial
    · refine faultless_order.bind fun _ => ?_
      split
      · trivial
      · trivial
  · trivial

theorem faultless_result {accumulator : Accumulator} : Faultless accumulator.result := by
  unfold result
  split
  · trivial
  · exact faultless_ofDecimal
  · trivial
  · trivial
  · trivial

end Accumulator

theorem Reduction.faultless_fold {reduction : Reduction} :
    Faultless (reduction.fold type stage slots) := by
  unfold fold
  refine (Faultless.foldlM fun accumulator row => ?_).bind fun _ =>
    Accumulator.faultless_result.within.bind fun _ => faultless_pure
  split
  · exact Accumulator.faultless_add
  · exact id

end SeriesQuery
