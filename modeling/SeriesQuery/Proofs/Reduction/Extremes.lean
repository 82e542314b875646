import SeriesQuery.Proofs.Decimal.Order
import SeriesQuery.Proofs.Query.Slices

/-!
# Extremes in any order

A minimum or a maximum of numbers is one of them, and none of them is beyond it.
It is the same number in whatever order they are taken, unless one of them is NaN:
a NaN that comes first is never replaced, and one that comes later is passed over.
-/

namespace SeriesQuery

open Decimal (Place comparePlaces)

/-- The place of a number among those of its type. NaN has none. -/
def Value.place? : Value → Option Place
  | .integer i => some (.of i.toInt 0 0)
  | .decimal x => Decimal.place? x
  | _ => none

def Value.isNaN : Value → Bool
  | .decimal x => x.isNaN
  | _ => false

theorem Value.isNaN_eq_true {value : Value} (h : value.isNaN = true) :
    ∃ x, value = .decimal x ∧ x.isNaN = true := by
  cases value with
  | decimal x => exact ⟨x, rfl, h⟩
  | _ => cases h

/-- The extreme that a reduction looks for, as the comparison of a value that is
beyond another one. -/
inductive Reduction.Seeks : Reduction → Comparison → Prop where
  | min : Seeks .min .less
  | max : Seeks .max .greater

/-- Values that are one value, or two numbers that are equal, such as the zeros. -/
def Value.Alike (a b : Value) : Prop := a = b ∨ Comparison.equals.evaluate a b = .ok true

-- ---------------------------------------------------------------------------
-- Numbers by their places
-- ---------------------------------------------------------------------------

section
variable {type : DataType} {a b : Value}

theorem comparePlaces_integers (m n : Int) :
    comparePlaces (some (.of m 0 0)) (some (.of n 0 0)) = some (compare m n) := by
  simp [comparePlaces, Place.compare_of]

theorem order_eq_places (hn : type.isNumeric = true) (ha : a.dataType? = some type)
    (hb : b.dataType? = some type) :
    Accumulator.order type a b = .ok (comparePlaces a.place? b.place?) := by
  cases type with
  | integer =>
    cases a <;> cases ha
    cases b <;> cases hb
    next m n => exact congrArg Except.ok (comparePlaces_integers m.toInt n.toInt).symm
  | decimal =>
    cases a <;> cases ha
    cases b <;> cases hb
    next x y => exact congrArg Except.ok (Decimal.orderDecimals_eq x y)
  | _ => cases hn

theorem evaluate_eq_places (comparison : Comparison) (hn : type.isNumeric = true)
    (ha : a.dataType? = some type) (hb : b.dataType? = some type) :
    comparison.evaluate a b = .ok (comparison.holds (comparePlaces a.place? b.place?)) := by
  cases type with
  | integer =>
    cases a <;> cases ha
    cases b <;> cases hb
    next m n =>
      simp [Comparison.evaluate, Value.place?, comparePlaces_integers]
  | decimal =>
    cases a <;> cases ha
    cases b <;> cases hb
    next x y => simp [Comparison.evaluate, Value.place?, Decimal.orderDecimals_eq]
  | _ => cases hn

theorem isNaN_iff (hn : type.isNumeric = true) (ha : a.dataType? = some type) :
    a.isNaN = true ↔ a.place? = none := by
  cases a with
  | integer i => simp [Value.isNaN, Value.place?]
  | decimal x => exact Decimal.place?_eq_none_iff.symm
  | _ => cases ha <;> cases hn

theorem alike_iff (hn : type.isNumeric = true) (ha : a.dataType? = some type)
    (hb : b.dataType? = some type) : a.Alike b ↔ a.place? = b.place? := by
  rw [Value.Alike, evaluate_eq_places .equals hn ha hb, Except.ok.injEq]
  constructor
  · rintro (rfl | hequal)
    · rfl
    · cases ha : a.place? <;> cases hb : b.place? <;>
        simp_all [comparePlaces, Comparison.holds, compare_eq_iff_eq]
  · intro hplace
    cases hp : a.place? with
    | some p => exact .inr (by simp [← hplace, hp, comparePlaces, Comparison.holds])
    | none =>
      have hnan := (isNaN_iff hn ha).mpr hp
      have hnan' := (isNaN_iff hn hb).mpr (hplace ▸ hp)
      obtain ⟨x, rfl, hx⟩ := Value.isNaN_eq_true hnan
      obtain ⟨y, rfl, hy⟩ := Value.isNaN_eq_true hnan'
      exact .inl (congrArg Value.decimal (Decimal.eq_of_isNaN hx hy))

end

-- ---------------------------------------------------------------------------
-- Folds
-- ---------------------------------------------------------------------------

namespace Reduction

section
variable {wanted : Ordering} {a b c : Option Place}

theorem not_beyond_self (hw : wanted ≠ .eq) : comparePlaces a a ≠ some wanted := by
  cases a with
  | none => simp [comparePlaces]
  | some p => simpa [comparePlaces] using hw.symm

theorem not_beyond_of_beyond (hw : wanted ≠ .eq) (h : comparePlaces a b = some wanted) :
    comparePlaces b a ≠ some wanted := by
  cases a <;> cases b <;> simp [comparePlaces] at h ⊢
  cases wanted with
  | eq => exact absurd rfl hw
  | lt => exact mt compare_lt_iff_lt.mp (compare_lt_iff_lt.mp h).not_gt
  | gt => exact mt compare_gt_iff_gt.mp (compare_gt_iff_gt.mp h).not_gt

theorem not_beyond_trans (hw : wanted ≠ .eq) (hb : b = none → c = none)
    (hab : comparePlaces a b ≠ some wanted) (hbc : comparePlaces b c ≠ some wanted) :
    comparePlaces a c ≠ some wanted := by
  cases a <;> cases b <;> cases c <;> simp_all [comparePlaces]
  next p q r =>
    cases wanted with
    | eq => exact absurd rfl hw
    | lt =>
      rw [compare_lt_iff_lt, not_lt] at hab hbc ⊢
      exact hbc.trans hab
    | gt =>
      rw [compare_gt_iff_gt, not_lt] at hab hbc ⊢
      exact hab.trans hbc

theorem eq_of_not_beyond (hw : wanted ≠ .eq) (hab : comparePlaces a b ≠ some wanted)
    (hba : comparePlaces b a ≠ some wanted) (h : a = none ↔ b = none) : a = b := by
  cases a <;> cases b <;> simp_all [comparePlaces]
  cases wanted with
  | eq => exact absurd rfl hw
  | lt =>
    rw [compare_lt_iff_lt, not_lt] at hab hba
    exact le_antisymm hba hab
  | gt =>
    rw [compare_gt_iff_gt, not_lt] at hab hba
    exact le_antisymm hab hba

end

section
variable {type : DataType} {wanted : Ordering} {best value : Value}

theorem add_extreme_eq (hn : type.isNumeric = true) (hbest : best.dataType? = some type)
    (hv : value.dataType? = some type) :
    Accumulator.add (.extreme type wanted (some best)) value = .ok (.extreme type wanted
      (some (if comparePlaces value.place? best.place? = some wanted then value else best))) := by
  have hvalid : type.validate value = .ok () := DataType.validate_eq_ok.mpr hv
  simp only [Accumulator.add, hvalid, order_eq_places hn hv hbest, bind, Except.bind]
  split <;> rfl

theorem foldlM_extreme (hn : type.isNumeric = true) (hw : wanted ≠ .eq) {rest : List Value}
    (hbest : best.dataType? = some type) (hrest : ∀ value ∈ rest, value.dataType? = some type) :
    ∃ last, rest.foldlM Accumulator.add (.extreme type wanted (some best)) =
        .ok (.extreme type wanted (some last)) ∧
      last ∈ best :: rest ∧ (last.place? = none ↔ best.place? = none) ∧
      ∀ value ∈ best :: rest, comparePlaces value.place? last.place? ≠ some wanted := by
  induction rest generalizing best with
  | nil => exact ⟨best, rfl, List.mem_singleton_self _, Iff.rfl, by simpa using not_beyond_self hw⟩
  | cons value rest ih =>
    obtain ⟨hvalue, hrest⟩ := List.forall_mem_cons.mp hrest
    rw [List.foldlM_cons, add_extreme_eq hn hbest hvalue]
    by_cases hbeyond : comparePlaces value.place? best.place? = some wanted
    · -- the value replaces the extreme so far
      rw [if_pos hbeyond]
      obtain ⟨last, hfold, hmem, hnan, hlast⟩ := ih hvalue hrest
      have hplaces : value.place? ≠ none ∧ best.place? ≠ none := by
        constructor <;> intro hnone <;> simp [hnone, comparePlaces] at hbeyond
      refine ⟨last, hfold, List.mem_cons_of_mem _ hmem,
        by simp [hnan, hplaces], List.forall_mem_cons.mpr ⟨?_, hlast⟩⟩
      exact not_beyond_trans hw hnan.mpr (not_beyond_of_beyond hw hbeyond)
        (hlast value List.mem_cons_self)
    · rw [if_neg hbeyond]
      obtain ⟨last, hfold, hmem, hnan, hlast⟩ := ih hbest hrest
      obtain ⟨hfirst, hlater⟩ := List.forall_mem_cons.mp hlast
      refine ⟨last, hfold, ?_, hnan, ?_⟩
      · rcases List.mem_cons.mp hmem with rfl | hmem
        · exact List.mem_cons_self
        · exact List.mem_cons_of_mem _ (List.mem_cons_of_mem _ hmem)
      · refine List.forall_mem_cons.mpr ⟨hfirst, List.forall_mem_cons.mpr ⟨?_, hlater⟩⟩
        exact not_beyond_trans hw hnan.mpr hbeyond hfirst

end

theorem Seeks.order {reduction : Reduction} {beyond : Comparison} (h : reduction.Seeks beyond) :
    ∃ wanted, wanted ≠ .eq ∧ (∀ type, reduction.start type = .extreme type wanted none) ∧
      ∀ order, beyond.holds order = (order == some wanted) := by
  cases h with
  | min => exact ⟨.lt, by simp, fun _ => rfl, fun _ => rfl⟩
  | max => exact ⟨.gt, by simp, fun _ => rfl, fun _ => rfl⟩

section
variable {reduction : Reduction} {beyond : Comparison} {type : DataType}

theorem ofValues_extreme (h : reduction.Seeks beyond) (hn : type.isNumeric = true) {first : Value}
    {rest : List Value} (hv : ∀ value ∈ first :: rest, value.dataType? = some type) :
    ∃ last, reduction.ofValues type (first :: rest) = .ok last ∧ last ∈ first :: rest ∧
      (last.isNaN = true ↔ first.isNaN = true) ∧
      ∀ value ∈ first :: rest, beyond.evaluate value last = .ok false := by
  obtain ⟨wanted, hw, hstart, hholds⟩ := h.order
  obtain ⟨hfirst, hrest⟩ := List.forall_mem_cons.mp hv
  obtain ⟨last, hfold, hmem, hnan, hlast⟩ := foldlM_extreme hn hw hfirst hrest
  have htype := hv last hmem
  have hvalid : type.validate first = .ok () := DataType.validate_eq_ok.mpr hfirst
  have hadd : (reduction.start type).add first = .ok (.extreme type wanted (some first)) := by
    simp [hstart, Accumulator.add, hvalid]
  refine ⟨last, ?_, hmem, by rw [isNaN_iff hn htype, isNaN_iff hn hfirst, hnan], ?_⟩
  · simp only [ofValues, List.foldlM_cons, hadd, bind, Except.bind]
    simp only [hfold]
    rfl
  · intro value hvalue
    simpa [evaluate_eq_places beyond hn (hv value hvalue) htype, hholds] using hlast value hvalue

theorem alike_iff_of_unbeaten (h : reduction.Seeks beyond) (hn : type.isNumeric = true)
    {a b : Value} (ha : a.dataType? = some type) (hb : b.dataType? = some type)
    (hab : beyond.evaluate a b = .ok false) (hba : beyond.evaluate b a = .ok false) :
    a.Alike b ↔ (a.isNaN = true ↔ b.isNaN = true) := by
  obtain ⟨wanted, hw, -, hholds⟩ := h.order
  rw [evaluate_eq_places beyond hn ha hb, hholds] at hab
  rw [evaluate_eq_places beyond hn hb ha, hholds] at hba
  rw [alike_iff hn ha hb, isNaN_iff hn ha, isNaN_iff hn hb]
  constructor
  · intro heq
    rw [heq]
  · exact eq_of_not_beyond hw (by simpa using hab) (by simpa using hba)

theorem isNaN_of_integer {a : Value} (ha : a.dataType? = some .integer) : a.isNaN = false := by
  cases a <;> cases ha
  rfl

theorem eq_of_alike {a b : Value} (ha : a.dataType? = some .integer)
    (hb : b.dataType? = some .integer) (h : a.Alike b) : a = b := by
  have hplaces := (alike_iff rfl ha hb).mp h
  cases a <;> cases ha
  cases b <;> cases hb
  next i j =>
  have hplace := toLex_inj.mp (Option.some.inj hplaces)
  rw [Int64.toInt_inj.mp (congrArg Prod.fst hplace)]

def startsWithNaN (values : List Value) : Bool := values.head?.any Value.isNaN

/-- The minimum or the maximum of numbers in two orders is the same number exactly if
both orders begin with NaN, which then is the extreme, or neither does. Then it is one
of the numbers, and none is beyond it. Integers have the same extreme in any order. -/
theorem extreme_in_any_order (h : reduction.Seeks beyond) (hn : type.isNumeric = true)
    {values others : List Value} (hv : ∀ value ∈ values, value.dataType? = some type)
    (hp : values.Perm others) :
    ∃ a b, reduction.ofValues type values = .ok a ∧ reduction.ofValues type others = .ok b ∧
      (a.Alike b ↔ startsWithNaN values = startsWithNaN others) ∧
      (type = .integer → a = b) ∧
      (values ≠ [] → a ∈ values ∧ (a.isNaN = true ↔ startsWithNaN values = true) ∧
        ∀ value ∈ values, beyond.evaluate value a = .ok false) := by
  cases values with
  | nil =>
    obtain rfl := hp.nil_eq
    have hnull : reduction.ofValues type [] = .ok .null := by cases h <;> rfl
    exact ⟨.null, .null, hnull, hnull, iff_of_true (.inl rfl) rfl, fun _ => rfl, by simp⟩
  | cons first rest =>
    obtain ⟨first', rest', rfl⟩ : ∃ first' rest', others = first' :: rest' :=
      List.exists_cons_of_ne_nil fun hnil => by simpa [hnil] using hp.length_eq
    have hv' : ∀ value ∈ first' :: rest', value.dataType? = some type := fun value hvalue =>
      hv value (hp.mem_iff.mpr hvalue)
    obtain ⟨a, ha, hmem, hnan, hbest⟩ := ofValues_extreme h hn hv
    obtain ⟨b, hb, hmem', hnan', hbest'⟩ := ofValues_extreme h hn hv'
    have halike := alike_iff_of_unbeaten h hn (hv a hmem) (hv' b hmem')
      (hbest' a (hp.mem_iff.mp hmem)) (hbest b (hp.mem_iff.mpr hmem'))
    refine ⟨a, b, ha, hb, ?_, ?_, fun _ => ⟨hmem, hnan, hbest⟩⟩
    · rw [halike, hnan, hnan', ← Bool.eq_iff_iff]
      rfl
    · rintro rfl
      have hnumbers : a.isNaN = true ↔ b.isNaN = true := by
        simp [isNaN_of_integer (hv a hmem), isNaN_of_integer (hv' b hmem')]
      exact eq_of_alike (hv a hmem) (hv' b hmem') (halike.mpr hnumbers)

end

def nan : Value := .decimal (Float.ofBits 0x7FF8000000000000)

def one : Value := .decimal (Float.ofBits 0x3FF0000000000000)

def two : Value := .decimal (Float.ofBits 0x4000000000000000)

theorem min_of_late_nan :
    Seeks .min .less ∧ DataType.decimal.isNumeric = true ∧
      (∀ value ∈ [two, nan, one], value.dataType? = some .decimal) ∧
      [two, nan, one].Perm [one, two, nan] ∧
      ∃ a b, min.ofValues .decimal [two, nan, one] = .ok a ∧
        min.ofValues .decimal [one, two, nan] = .ok b ∧
        (a.Alike b ↔ startsWithNaN [two, nan, one] = startsWithNaN [one, two, nan]) ∧
        (DataType.decimal = .integer → a = b) ∧
        ([two, nan, one] ≠ [] → a ∈ [two, nan, one] ∧
          (a.isNaN = true ↔ startsWithNaN [two, nan, one] = true) ∧
          ∀ value ∈ [two, nan, one], Comparison.less.evaluate value a = .ok false) := by
  have htypes : ∀ value ∈ [two, nan, one], value.dataType? = some .decimal := by decide
  have hperm : [two, nan, one].Perm [one, two, nan] := by decide
  exact ⟨.min, rfl, htypes, hperm, extreme_in_any_order .min rfl htypes hperm⟩

/-- A NaN is the minimum if it comes first, and does not count if it comes second. -/
theorem min_of_nan_by_order :
    [nan, one].Perm [one, nan] ∧ (∀ value ∈ [nan, one], value.dataType? = some .decimal) ∧
      min.ofValues .decimal [nan, one] = .ok nan ∧ min.ofValues .decimal [one, nan] = .ok one ∧
      ¬ nan.Alike one := by
  have hdiffer : nan ≠ one := by decide
  have hunequal : Comparison.equals.evaluate nan one = .ok false := rfl
  exact ⟨.swap _ _ _, by decide, rfl, rfl, by simp [Value.Alike, hdiffer, hunequal]⟩

end Reduction

end SeriesQuery
