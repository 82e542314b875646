import Mathlib.Algebra.BigOperators.Group.List.Basic
import Mathlib.Algebra.Ring.Int.Defs
import SeriesQuery.Reduction.Accumulator

/-!
# Refused values leave no trace

An accumulator that refuses a value is what it was before the turn. So one that
was offered values of any kind tells at each point what one tells that was
offered only those that the first one took. A sum of integers is exact: it
refuses what is no integer, and an integer with which the sum would leave the 64
bits.
-/

namespace SeriesQuery

def exactSum (values : List Value) : Int :=
  ((values.filterMap Value.asInteger?).map Int64.toInt).sum

@[simp] theorem exactSum_nil : exactSum [] = 0 := rfl

@[simp] theorem exactSum_integer : exactSum (.integer i :: rest) = i.toInt + exactSum rest := by
  simp [exactSum, Value.asInteger?]

theorem exactSum_perm {values others : List Value} (h : values.Perm others) :
    exactSum values = exactSum others :=
  ((h.filterMap _).map _).sum_eq

namespace Accumulator

variable {accumulator next : Accumulator} {value : Value}

-- ---------------------------------------------------------------------------
-- One turn
-- ---------------------------------------------------------------------------

/-- A turn ends as a step does that makes the next accumulator. Where the step
fails, the accumulator is what it was. -/
def Settles (turn : Turn) (accumulator : Accumulator) (step : Except EvalError Accumulator) :
    Prop :=
  turn.run.run accumulator = match step with
    | .ok next => (.ok (), next)
    | .error e => (.error e, accumulator)

theorem Settles.bind {x : Except EvalError α} {turn : α → Turn}
    {step : α → Except EvalError Accumulator} (h : ∀ a, Settles (turn a) accumulator (step a)) :
    Settles (liftM x >>= turn) accumulator (x >>= step) := by
  cases x with
  | error e => rfl
  | ok a => exact h a

theorem settles_set : Settles (set next) accumulator (.ok next) := rfl

theorem settles_throw : Settles (throw e) accumulator (.error e) := rfl

theorem settles_add (accumulator : Accumulator) (value : Value) :
    Settles (accumulator.take value) accumulator (accumulator.add value) := by
  unfold take add
  cases accumulator with
  | sum type integer decimal =>
    cases type with
    | integer =>
      cases value with
      | integer i =>
        cases h : integer? (integer.toInt + i.toInt) with
        | none => simp [h, settles_throw]
        | some total => simp [h, settles_set]
      | _ => exact .bind fun _ => settles_set
    | _ => exact .bind fun _ => settles_set
  | avg type total taken => exact .bind fun _ => settles_set
  | extreme type wanted current =>
    refine .bind fun _ => ?_
    cases current with
    | none => exact settles_set
    | some best =>
      refine .bind fun found => ?_
      split
      · exact settles_set
      · rfl
  | count taken => exact settles_set

theorem offer_of_add (h : accumulator.add value = .ok next) :
    accumulator.offer value = (.ok (), next) := by
  have hturn := settles_add accumulator value
  simp only [Settles, h] at hturn
  exact hturn

theorem offer_of_refused (h : accumulator.add value = .error e) :
    accumulator.offer value = (.error e, accumulator) := by
  have hturn := settles_add accumulator value
  simp only [Settles, h] at hturn
  exact hturn

-- ---------------------------------------------------------------------------
-- Many turns
-- ---------------------------------------------------------------------------

/-- The accumulator after it was offered values in turn, whatever each turn ended
with. -/
def offered (accumulator : Accumulator) (values : List Value) : Accumulator :=
  values.foldl (fun accumulator value => (accumulator.offer value).2) accumulator

/-- The values that an accumulator takes when it is offered some in turn. -/
def accepted : Accumulator → List Value → List Value
  | _, [] => []
  | accumulator, value :: rest =>
    match accumulator.offer value with
    | (.ok (), next) => value :: next.accepted rest
    | (.error _, next) => next.accepted rest

theorem offered_cons :
    accumulator.offered (value :: rest) = (accumulator.offer value).2.offered rest := rfl

theorem accepted_of_add (h : accumulator.add value = .ok next) :
    accumulator.accepted (value :: rest) = value :: next.accepted rest := by
  simp [accepted, offer_of_add h]

theorem accepted_of_refused (h : accumulator.add value = .error e) :
    accumulator.accepted (value :: rest) = accumulator.accepted rest := by
  simp [accepted, offer_of_refused h]

theorem accepted_accepted (accumulator : Accumulator) (values : List Value) :
    accumulator.accepted (accumulator.accepted values) = accumulator.accepted values := by
  induction values generalizing accumulator with
  | nil => rfl
  | cons value rest ih =>
    cases h : accumulator.add value with
    | error e => simp [accepted_of_refused h, ih]
    | ok next => simp [accepted_of_add h, ih]

theorem offered_accepted (accumulator : Accumulator) (values : List Value) :
    accumulator.offered (accumulator.accepted values) = accumulator.offered values := by
  induction values generalizing accumulator with
  | nil => rfl
  | cons value rest ih =>
    cases h : accumulator.add value with
    | error e => simp [accepted_of_refused h, offered_cons, offer_of_refused h, ih]
    | ok next => simp [accepted_of_add h, offered_cons, offer_of_add h, ih]

-- ---------------------------------------------------------------------------
-- Sums of integers
-- ---------------------------------------------------------------------------

theorem add_integer (decimal : Float) (h : FitsInteger (total.toInt + i.toInt)) :
    ∃ next : Int64, next.toInt = total.toInt + i.toInt ∧
      (sum .integer total decimal).add (.integer i) = .ok (sum .integer next decimal) := by
  have hnext : integer? (total.toInt + i.toInt) = some (.ofInt (total.toInt + i.toInt)) :=
    if_pos h
  exact ⟨_, toInt_of_integer? hnext, by simp [add, hnext]⟩

theorem add_integer_overflow (h : ¬ FitsInteger (total.toInt + i.toInt)) :
    (sum .integer total decimal).add (.integer i) = .error (.overflow "sum") := by
  simp [add, integer?_eq_none_iff.mpr h]

theorem add_no_integer (h : value.dataType? ≠ some .integer) :
    (sum .integer total decimal).add value = .error (DataType.integer.mismatch value) := by
  cases value with
  | integer i => exact absurd rfl h
  | _ => rfl

theorem add_eq_error_iff (decimal : Float) :
    (∃ e, (sum .integer total decimal).add value = .error e) ↔ value.dataType? ≠ some .integer ∨
      ∃ i, value = .integer i ∧ ¬ FitsInteger (total.toInt + i.toInt) := by
  constructor
  · rintro ⟨e, he⟩
    by_contra! hboth
    obtain ⟨htype, hfits⟩ := hboth
    cases value with
    | integer i =>
      obtain ⟨next, -, hnext⟩ := add_integer decimal (hfits i rfl)
      simp [hnext] at he
    | _ => cases htype
  · rintro (htype | ⟨i, rfl, hfits⟩)
    · exact ⟨_, add_no_integer htype⟩
    · exact ⟨_, add_integer_overflow hfits⟩

theorem eq_of_add (h : (sum .integer total decimal).add value = .ok next) :
    ∃ (i total' : Int64), value = .integer i ∧ total'.toInt = total.toInt + i.toInt ∧
      next = sum .integer total' decimal := by
  cases value with
  | integer i =>
    by_cases hfits : FitsInteger (total.toInt + i.toInt)
    · obtain ⟨total', htotal, hadd⟩ := add_integer decimal hfits
      exact ⟨i, total', rfl, htotal, by simpa [hadd] using h.symm⟩
    · simp [add_integer_overflow hfits] at h
  | _ => cases h

theorem offered_sum (total : Int64) (decimal : Float) (values : List Value) :
    ∃ total' : Int64, (sum .integer total decimal).offered values = sum .integer total' decimal ∧
      (∀ value ∈ (sum .integer total decimal).accepted values, value.dataType? = some .integer) ∧
      total'.toInt = total.toInt + exactSum ((sum .integer total decimal).accepted values) := by
  induction values generalizing total with
  | nil => exact ⟨total, rfl, by simp [accepted], by simp [accepted]⟩
  | cons value rest ih =>
    cases h : (sum .integer total decimal).add value with
    | error e =>
      simpa [accepted_of_refused h, offered_cons, offer_of_refused h] using ih total
    | ok next =>
      obtain ⟨i, between, rfl, hbetween, rfl⟩ := eq_of_add h
      obtain ⟨total', hoffered, htypes, htotal⟩ := ih between
      refine ⟨total', by simp [offered_cons, offer_of_add h, hoffered], ?_, ?_⟩
      · rw [accepted_of_add h, List.forall_mem_cons]
        exact ⟨rfl, htypes⟩
      · rw [accepted_of_add h, exactSum_integer, htotal, hbetween, Int.add_assoc]

end Accumulator

namespace Reduction

/-- An accumulator that was offered any values tells what one tells that was
offered only those that it took, and that one takes all of them. The sum of
integers is the exact sum of the values that it took. It refuses a value exactly
if that is no integer, or if the sum with it does not fit. -/
theorem refused_without_trace (reduction : Reduction) (type : DataType) (values : List Value) :
    ((reduction.start type).accepted ((reduction.start type).accepted values) =
        (reduction.start type).accepted values ∧
      ((reduction.start type).offered ((reduction.start type).accepted values)).result =
        ((reduction.start type).offered values).result) ∧
    ∃ total : Int64,
      ((sum.start .integer).offered values).result = .ok (.integer total) ∧
      (∀ value ∈ (sum.start .integer).accepted values, value.dataType? = some .integer) ∧
      total.toInt = exactSum ((sum.start .integer).accepted values) ∧
      ∀ value, (∃ e, (((sum.start .integer).offered values).offer value).1 = .error e) ↔
        value.dataType? ≠ some .integer ∨
          ∃ i, value = .integer i ∧ ¬ FitsInteger (total.toInt + i.toInt) := by
  refine ⟨⟨Accumulator.accepted_accepted _ values, ?_⟩, ?_⟩
  · rw [Accumulator.offered_accepted]
  · obtain ⟨total, hoffered, htypes, htotal⟩ := Accumulator.offered_sum 0 0 values
    have hstart : sum.start .integer = .sum .integer 0 0 := rfl
    refine ⟨total, by rw [hstart, hoffered]; rfl, htypes, by simpa [hstart] using htotal,
      fun value => ?_⟩
    rw [hstart, hoffered, ← Accumulator.add_eq_error_iff 0]
    cases h : (Accumulator.sum .integer total 0).add value with
    | error e => simp [Accumulator.offer_of_refused h]
    | ok next => simp [Accumulator.offer_of_add h]

end Reduction

end SeriesQuery
