import SeriesQuery.Proofs.Decimal.Size

/-!
# Negated decimals

Negation turns the sign of a decimal and nothing else, and a quotient turns its sign
with that of the dividend. So the decimal of a whole number is negative, and a part
of it zero, exactly where the number is.
-/

namespace SeriesQuery.Decimal

open Float.Model (Format UnpackedFloat)
open Float.Model.UnpackedFloat

variable {f g : UnpackedFloat} {q r t v w : ℚ} {x y z : Float}

-- ---------------------------------------------------------------------------
-- Negated doubles
-- ---------------------------------------------------------------------------

theorem unpack_packComponents_neg (sign : Sign) (exponent : BitVec 11) (mantissa : BitVec 52) :
    UnpackedFloat.unpack .binary64 (packComponents .binary64 (-sign) exponent mantissa) =
      (UnpackedFloat.unpack .binary64 (packComponents .binary64 sign exponent mantissa)).neg := by
  have hsign : Sign.ofBitVec (-sign).toBitVec = -Sign.ofBitVec sign.toBitVec := by
    cases sign <;> rfl
  simp only [UnpackedFloat.unpack, unpackMantissa_packComponents, unpackExponent_packComponents,
    unpackSign_packComponents, hsign]
  split
  · split <;> rfl
  · split
    · split <;> rfl
    · rfl

theorem unpack_pack_neg (f : UnpackedFloat) :
    (Float.Model.pack f.neg).unpack = (Float.Model.pack f).unpack.neg := by
  cases f with
  | notANumber => rfl
  | infinity sign => exact unpack_packComponents_neg sign _ _
  | zero sign => exact unpack_packComponents_neg sign _ _
  | finite sign m e hpos =>
    simp only [Float.Model.unpack, Float.Model.pack, UnpackedFloat.neg, UnpackedFloat.pack]
    split
    · exact unpack_packComponents_neg sign _ _
    · split
      · exact unpack_packComponents_neg sign _ _
      · exact unpack_packComponents_neg sign _ _

theorem double_neg_neg (f : UnpackedFloat) : f.neg.neg = f := by
  cases f with
  | notANumber => rfl
  | infinity sign | zero sign | finite sign => cases sign <;> rfl

theorem roundWithAccuracy_neg (sign : Sign) (m : ℕ) (e : ℤ) (accuracy : Accuracy) :
    roundWithAccuracy .binary64 (-sign) m e accuracy =
      (roundWithAccuracy .binary64 sign m e accuracy).neg := by
  simp only [roundWithAccuracy]
  split
  · rfl
  · rfl

theorem div_neg (f g : UnpackedFloat) :
    UnpackedFloat.div .binary64 f.neg g = (UnpackedFloat.div .binary64 f g).neg := by
  have hsign : ∀ s t : Sign, -s / t = -(s / t) := by
    intro s t
    cases s <;> cases t <;> rfl
  cases f with
  | finite s m e hpos =>
    cases g with
    | finite =>
      simp only [UnpackedFloat.neg, UnpackedFloat.div, hsign]
      exact roundWithAccuracy_neg _ _ _ _
    | _ => simp [UnpackedFloat.neg, UnpackedFloat.div, hsign]
  | _ => cases g <;> simp [UnpackedFloat.neg, UnpackedFloat.div, hsign]

-- ---------------------------------------------------------------------------
-- Negated decimals
-- ---------------------------------------------------------------------------

/-- The decimal stands for the negative of a number. -/
def Debt (x : Float) (v : ℚ) : Prop := Holds x.toModel.unpack.neg v

theorem Size.neg (hx : Size x v) (hv : v < 2 ^ 1024) : Debt (-x) v := by
  show Holds (Float.Model.pack x.toModel.unpack.neg).unpack.neg v
  rw [unpack_pack_neg, double_neg_neg, hx.unpack_pack hv]
  exact hx

namespace Debt

theorem div (hx : Debt x q) (hy : Size y r) (hr : 0 < r) (hsmall : q / r ≤ 2 ^ 1023) :
    ∃ v, RoundsTo (q / r) v ∧ Debt (x / y) v := by
  obtain ⟨v, hrounds, hholds⟩ := Holds.div hx hy hr
  rw [div_neg] at hholds
  have hsize := size_pack hrounds hholds hsmall
  refine ⟨v, hrounds, ?_⟩
  show Holds (Float.Model.pack
    (UnpackedFloat.div .binary64 x.toModel.unpack y.toModel.unpack)).unpack.neg v
  rw [← unpack_pack_neg]
  exact hsize

theorem compare_zero (hx : Debt x v) :
    x.toModel.unpack.compare (.zero .positive) = some (if v = 0 then .eq else .lt) := by
  obtain ⟨f, hf⟩ : ∃ f : UnpackedFloat, x.toModel.unpack = f.neg := ⟨_, (double_neg_neg _).symm⟩
  rw [Debt, hf, double_neg_neg] at hx
  rw [hf]
  cases hx with
  | zero => rfl
  | finite hpos =>
    rw [if_neg (by positivity)]
    rfl

theorem beq_zero_iff (hx : Debt x v) : (x == 0) = true ↔ v = 0 := by
  show (x.toModel.unpack.compare (.zero .positive) == some .eq) = true ↔ v = 0
  rw [hx.compare_zero]
  split <;> simp_all

theorem lt_zero_iff (hx : Debt x v) : x < 0 ↔ v ≠ 0 := by
  show decide (x.toModel.unpack.compare (.zero .positive) == some .lt) = true ↔ v ≠ 0
  rw [hx.compare_zero]
  split <;> simp_all

theorem ofInt {n : ℤ} (hneg : n < 0) (hn : -2 ^ 64 < n) :
    ∃ v, RoundsTo (-n : ℤ) v ∧ v ≤ 2 ^ 64 ∧ Debt (.ofInt n) v := by
  obtain ⟨k, rfl⟩ := Int.eq_negSucc_of_lt_zero hneg
  obtain ⟨v, hrounds, hbound, hsize⟩ :=
    Size.ofInt (n := (k + 1 : ℕ)) (by omega) (by omega)
  have hsmall : v < 2 ^ 1024 := hbound.trans_lt (pow_lt_pow_right₀ (by norm_num) (by decide))
  exact ⟨v, hrounds, hbound, hsize.neg hsmall⟩

end Debt

-- ---------------------------------------------------------------------------
-- Whole numbers
-- ---------------------------------------------------------------------------

theorem ofInt_lt_zero_iff {n : ℤ} (hlow : -2 ^ 64 < n) (hhigh : n < 2 ^ 64) :
    Float.ofInt n < 0 ↔ n < 0 := by
  by_cases hneg : n < 0
  · obtain ⟨v, hrounds, -, hdebt⟩ := Debt.ofInt hneg hlow
    have hone : ((1 : ℕ) : ℚ) ≤ v :=
      hrounds.double_le (isDouble_natCast (by decide)) (by exact_mod_cast (show 1 ≤ -n by omega))
    refine hdebt.lt_zero_iff.trans (iff_of_true ?_ hneg)
    rintro rfl
    norm_num at hone
  · obtain ⟨v, -, -, hsize⟩ := Size.ofInt (Int.not_lt.mp hneg) hhigh
    exact iff_of_false hsize.not_lt_zero hneg

theorem ofInt_div_beq_zero_iff {n : ℤ} (hlow : -2 ^ 64 < n) (hhigh : n < 2 ^ 64) (hz : Size z t)
    (ht : 1 ≤ t) (hlarge : t ≤ 2 ^ 64) : (Float.ofInt n / z == 0) = true ↔ n = 0 := by
  have hpos : 0 < t := by linarith
  by_cases hneg : n < 0
  · obtain ⟨u, hu, hbound, hdebt⟩ := Debt.ofInt hneg hlow
    obtain ⟨v, hv, hpart⟩ := hdebt.div hz hpos (part_le (Holds.nonneg hdebt) hbound ht)
    exact hpart.beq_zero_iff.trans ((hu.part_eq_zero (by omega) hv ht hlarge).trans neg_eq_zero)
  · obtain ⟨v, hsize, hzero⟩ := Size.part (Int.not_lt.mp hneg) hhigh hz ht hlarge
    exact hsize.beq_zero_iff.trans hzero

end SeriesQuery.Decimal
