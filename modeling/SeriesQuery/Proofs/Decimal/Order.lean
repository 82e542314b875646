import Mathlib
import SeriesQuery.Expr.Operator

/-!
# The order of decimals

All decimals but NaN have a place in one linear order: the infinities at its ends,
the finite decimals by their sign, then by exponent and mantissa, and the two zeros
at one place. Decimals are compared as their places are, and NaN has no order with
any decimal.
-/

namespace SeriesQuery.Decimal

open Float.Model (UnpackedFloat)

/-- A place in the order: the sign and size, then the exponent, then the mantissa. -/
abbrev Place := ℤ ×ₗ ℤ ×ₗ ℤ

def Place.of (a b c : ℤ) : Place := toLex (a, toLex (b, c))

theorem Place.compare_of (a b c a' b' c' : ℤ) : compare (Place.of a b c) (Place.of a' b' c') =
    (compare a a').then ((compare b b').then (compare c c')) := rfl

def comparePlaces (a b : Option Place) : Option Ordering :=
  a.bind fun a => b.map (compare a)

-- ---------------------------------------------------------------------------
-- Unpacked doubles
-- ---------------------------------------------------------------------------

def unpackedPlace? : UnpackedFloat → Option Place
  | .notANumber => none
  | .infinity .negative => some (.of (-2) 0 0)
  | .finite .negative m e _ => some (.of (-1) (-e) (-m))
  | .zero _ => some (.of 0 0 0)
  | .finite .positive m e _ => some (.of 1 e m)
  | .infinity .positive => some (.of 2 0 0)

theorem compare_natCast (m n : ℕ) : compare (m : ℤ) n = compare m n := by
  rcases lt_trichotomy m n with hlt | rfl | hgt
  · simp [compare_lt_iff_lt.mpr hlt, compare_lt_iff_lt.mpr (Int.ofNat_lt.mpr hlt)]
  · simp
  · simp [compare_gt_iff_gt.mpr hgt, compare_gt_iff_gt.mpr (Int.ofNat_lt.mpr hgt)]

theorem compare_negated (a b : ℤ) : compare (-a) (-b) = (compare a b).swap := by
  rcases lt_trichotomy a b with hlt | rfl | hgt
  · simp [compare_lt_iff_lt.mpr hlt, compare_gt_iff_gt.mpr (neg_lt_neg hlt)]
  · simp
  · simp [compare_gt_iff_gt.mpr hgt, compare_lt_iff_lt.mpr (neg_lt_neg hgt)]

theorem compare_eq_places (f g : UnpackedFloat) :
    f.compare g = comparePlaces (unpackedPlace? f) (unpackedPlace? g) := by
  cases f with
  | notANumber => rfl
  | infinity s =>
    cases g with
    | infinity t | finite t => cases s <;> cases t <;> rfl
    | _ => cases s <;> rfl
  | zero s =>
    cases g with
    | infinity t | finite t => cases t <;> rfl
    | _ => rfl
  | finite s m e =>
    cases g with
    | infinity t => cases s <;> cases t <;> rfl
    | finite t n e' =>
      cases s <;> cases t
      case negative.negative =>
        simp [UnpackedFloat.compare, unpackedPlace?, comparePlaces, Place.compare_of,
          compare_natCast, compare_negated, Ordering.swap_then]
      case positive.positive =>
        simp [UnpackedFloat.compare, unpackedPlace?, comparePlaces, Place.compare_of,
          compare_natCast]
      all_goals rfl
    | _ => cases s <;> rfl

theorem unpackedPlace?_eq_none_iff {f : UnpackedFloat} :
    unpackedPlace? f = none ↔ f.isNaN = true := by
  cases f with
  | infinity s | finite s => cases s <;> simp [unpackedPlace?, UnpackedFloat.isNaN]
  | _ => simp [unpackedPlace?, UnpackedFloat.isNaN]

-- ---------------------------------------------------------------------------
-- Decimals
-- ---------------------------------------------------------------------------

/-- The place of a decimal. NaN has none. -/
def place? (x : Float) : Option Place := unpackedPlace? x.toModel.unpack

theorem place?_eq_none_iff {x : Float} : place? x = none ↔ x.isNaN = true :=
  unpackedPlace?_eq_none_iff

theorem bits_of_isNaN {f : Float.Model} (h : f.isNaN = true) :
    f.toBits.toBitVec = UnpackedFloat.packedNaN .binary64 := by
  apply f.valid.eq_packedNaN
  all_goals
    simp only [Float.Model.isNaN, Float.Model.unpack, UnpackedFloat.unpack] at h
    split at h
    · split at h
      · cases h
      · assumption
    · split at h
      · split at h <;> cases h
      · cases h

theorem eq_of_isNaN {x y : Float} (hx : x.isNaN = true) (hy : y.isNaN = true) : x = y := by
  obtain ⟨⟨a, ha⟩⟩ := x
  obtain ⟨⟨b, hb⟩⟩ := y
  have hbits : a.toBitVec = b.toBitVec := (bits_of_isNaN hx).trans (bits_of_isNaN hy).symm
  obtain rfl := UInt64.toBitVec_inj.mp hbits
  rfl

-- ---------------------------------------------------------------------------
-- Comparisons
-- ---------------------------------------------------------------------------

theorem lt_iff_places {x y : Float} : x < y ↔ comparePlaces (place? x) (place? y) = some .lt := by
  show decide (x.toModel.unpack.compare y.toModel.unpack == some .lt) = true ↔ _
  simp [compare_eq_places, place?]

theorem beq_iff_places {x y : Float} :
    (x == y) = true ↔ comparePlaces (place? x) (place? y) = some .eq := by
  show (x.toModel.unpack.compare y.toModel.unpack == some .eq) = true ↔ _
  simp [compare_eq_places, place?]

theorem orderDecimals_eq (x y : Float) :
    Comparison.orderDecimals x y = comparePlaces (place? x) (place? y) := by
  simp only [Comparison.orderDecimals, lt_iff_places, beq_iff_places]
  cases hx : place? x with
  | none => simp [comparePlaces]
  | some a =>
    cases hy : place? y with
    | none => simp [comparePlaces]
    | some b =>
      rcases lt_trichotomy a b with hlt | rfl | hgt
      · simp [comparePlaces, compare_lt_iff_lt.mpr hlt]
      · simp [comparePlaces]
      · simp [comparePlaces, compare_lt_iff_lt.mpr hgt, compare_gt_iff_gt.mpr hgt]

end SeriesQuery.Decimal
