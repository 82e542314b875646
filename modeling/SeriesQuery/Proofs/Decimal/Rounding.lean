import Mathlib

/-!
# Rounding to a double

The arithmetic of doubles cuts an exact number after 53 bits, remembers where in
the last place it was cut, and rounds by that. Here the result is shown to be a
double nearest to the exact number, and only that is used of it: nearest doubles
are in the order of what they are nearest to, and a double is nearest to itself.
-/

namespace SeriesQuery.Decimal

open Float.Model Float.Model.UnpackedFloat

variable {q r v w x : ℚ} {m n : ℕ} {e t : ℤ}

-- ---------------------------------------------------------------------------
-- Nearest doubles
-- ---------------------------------------------------------------------------

/-- The numbers without sign that doubles stand for, if their exponent had no
upper bound. -/
def IsDouble (q : ℚ) : Prop :=
  ∃ (m : ℕ) (e : ℤ), m ≤ 2 ^ 53 ∧ -1074 ≤ e ∧ q = m * 2 ^ e

/-- A double to which a number may be rounded: no double is nearer. -/
structure RoundsTo (q v : ℚ) : Prop where
  double : IsDouble v
  nearest : ∀ w, IsDouble w → |q - v| ≤ |q - w|

theorem isDouble_natCast (hm : m ≤ 2 ^ 53) : IsDouble m := ⟨m, 0, hm, by decide, by simp⟩

theorem isDouble_zpow (he : -1074 ≤ e) : IsDouble (2 ^ e) := ⟨1, e, by decide, he, by simp⟩

namespace RoundsTo

theorem of_isDouble (h : IsDouble q) : RoundsTo q q :=
  ⟨h, fun w _ => by simp⟩

theorem eq_of_isDouble (h : RoundsTo q v) (hq : IsDouble q) : v = q := by
  have hle := h.nearest q hq
  rw [sub_self, abs_zero, abs_nonpos_iff, sub_eq_zero] at hle
  exact hle.symm

theorem mono (hq : RoundsTo q v) (hr : RoundsTo r w) (hlt : q < r) : v ≤ w := by
  by_contra! hback
  have h₁ := hq.nearest w hr.double
  have h₂ := hr.nearest v hq.double
  rcases abs_cases (q - v) with h₃ | h₃ <;> rcases abs_cases (q - w) with h₄ | h₄ <;>
    rcases abs_cases (r - w) with h₅ | h₅ <;> rcases abs_cases (r - v) with h₆ | h₆ <;> linarith

theorem le_double (h : RoundsTo q v) (hr : IsDouble r) (hle : q ≤ r) : v ≤ r := by
  rcases hle.lt_or_eq with hlt | rfl
  · exact h.mono (of_isDouble hr) hlt
  · exact (h.eq_of_isDouble hr).le

theorem double_le (h : RoundsTo q v) (hr : IsDouble r) (hle : r ≤ q) : r ≤ v := by
  rcases hle.lt_or_eq with hlt | rfl
  · exact (of_isDouble hr).mono h hlt
  · exact (h.eq_of_isDouble hr).ge

theorem of_lastPlace (he : -1074 ≤ e) (hm : m ≤ 2 ^ 53) (hfull : 2 ^ 52 * 2 ^ e ≤ q ∨ e = -1074)
    (hnear : |q / 2 ^ e - m| ≤ 1 / 2) : RoundsTo q (m * 2 ^ e) := by
  have hu : (0 : ℚ) < 2 ^ e := by positivity
  have hmultiple : ∀ n : ℕ, |q - m * 2 ^ e| ≤ |q - n * 2 ^ e| := by
    intro n
    have hscale : ∀ k : ℕ, |q - k * 2 ^ e| = |q / 2 ^ e - k| * 2 ^ e := fun k => by
      rw [← abs_of_pos hu, ← abs_mul, abs_of_pos hu, sub_mul, div_mul_cancel₀ _ hu.ne']
    rw [hscale, hscale]
    refine mul_le_mul_of_nonneg_right ?_ hu.le
    rcases eq_or_ne m n with rfl | hne
    · exact le_refl _
    · have hapart : (1 : ℚ) ≤ |(m : ℚ) - n| := by
        have : 1 ≤ |(m : ℤ) - n| := Int.one_le_abs (by omega)
        exact_mod_cast this
      have htriangle := abs_sub_le (m : ℚ) (q / 2 ^ e) n
      rw [abs_sub_comm (m : ℚ) (q / 2 ^ e)] at htriangle
      linarith
  refine ⟨⟨m, e, hm, he, rfl⟩, ?_⟩
  rintro _ ⟨n, f, hn, hf, rfl⟩
  by_cases hfe : e ≤ f
  · have hcast : (n : ℚ) * 2 ^ f = (n * 2 ^ (f - e).toNat : ℕ) * 2 ^ e := by
      push_cast
      rw [mul_assoc, ← zpow_natCast (2 : ℚ), ← zpow_add₀ two_ne_zero]
      congr 2
      omega
    rw [hcast]
    exact hmultiple _
  · -- a double with a smaller last place is below the first one with 53 bits
    have hq : (2 : ℚ) ^ 52 * 2 ^ e ≤ q := hfull.resolve_right (by omega)
    have hsmall : (n : ℚ) * 2 ^ f ≤ 2 ^ 52 * 2 ^ e := by
      have hpow : (2 : ℚ) ^ (f + 1) ≤ 2 ^ e := zpow_le_zpow_right₀ (by norm_num) (by omega)
      rw [zpow_add_one₀ two_ne_zero] at hpow
      have hn' : (n : ℚ) ≤ 2 ^ 53 := by exact_mod_cast hn
      calc (n : ℚ) * 2 ^ f ≤ 2 ^ 53 * 2 ^ f := mul_le_mul_of_nonneg_right hn' (by positivity)
        _ = 2 ^ 52 * (2 ^ f * 2) := by ring
        _ ≤ 2 ^ 52 * 2 ^ e := mul_le_mul_of_nonneg_left hpow (by positivity)
    have hfirst := hmultiple (2 ^ 52)
    rw [Nat.cast_pow, Nat.cast_ofNat, abs_of_nonneg (sub_nonneg.mpr hq)] at hfirst
    rw [abs_of_nonneg (sub_nonneg.mpr (hsmall.trans hq))]
    linarith

end RoundsTo

-- ---------------------------------------------------------------------------
-- Cut numbers
-- ---------------------------------------------------------------------------

/-- What is known of the part of a last place that was cut off. -/
def Cuts : Accuracy → ℚ → Prop
  | .exact, rest => rest = 0
  | .inexact .lt, rest => 0 < rest ∧ rest < 1 / 2
  | .inexact .eq, rest => rest = 1 / 2
  | .inexact .gt, rest => 1 / 2 < rest ∧ rest < 1

theorem Cuts.bounds {accuracy : Accuracy} (h : Cuts accuracy x) : 0 ≤ x ∧ x < 1 := by
  rcases accuracy with _ | (_ | _ | _) <;> simp only [Cuts] at h
  · exact ⟨h.ge, by linarith⟩
  · exact ⟨h.1.le, by linarith⟩
  · exact ⟨by linarith, by linarith⟩
  · exact ⟨by linarith, h.2⟩

theorem cuts_accuracyOfFraction (hlt : m < n) : Cuts (accuracyOfFraction m n) (m / n) := by
  have hn : (0 : ℚ) < n := by exact_mod_cast Nat.zero_lt_of_lt hlt
  unfold accuracyOfFraction
  split
  · next hzero => simp [Cuts, hzero]
  · next hzero =>
    have hm : (0 : ℚ) < m := by exact_mod_cast Nat.pos_of_ne_zero hzero
    have hone : (m : ℚ) < n := by exact_mod_cast hlt
    rcases h : compare (2 * m) n with _ | _ | _
    · have hhalf : ((2 * m : ℕ) : ℚ) < n := by exact_mod_cast Nat.compare_eq_lt.mp h
      push_cast at hhalf
      exact ⟨by positivity, by rw [div_lt_div_iff₀ hn two_pos]; linarith⟩
    · have hhalf : ((2 * m : ℕ) : ℚ) = n := by exact_mod_cast Nat.compare_eq_eq.mp h
      push_cast at hhalf
      show (m : ℚ) / n = 1 / 2
      rw [div_eq_div_iff hn.ne' two_ne_zero]
      linarith
    · have hhalf : (n : ℚ) < (2 * m : ℕ) := by exact_mod_cast Nat.compare_eq_gt.mp h
      push_cast at hhalf
      exact ⟨by rw [div_lt_div_iff₀ two_pos hn]; linarith, by rw [div_lt_one hn]; linarith⟩

/-- The mantissa of a number and the two bits behind it. -/
def Extends (em : ExtendedMantissa) (x : ℚ) : Prop := Cuts em.accuracy (x - em.mantissa)

namespace Extends

theorem ofMantissaAndAccuracy {accuracy : Accuracy} (h : Cuts accuracy (x - m)) :
    Extends (.ofMantissaAndAccuracy m accuracy) x := by
  rcases accuracy with _ | (_ | _ | _) <;> exact h

theorem shiftRightOne {em : ExtendedMantissa} (h : Extends em x) :
    Extends em.shiftRightOne (x / 2) := by
  obtain ⟨m, roundBit, stickyBit⟩ := em
  have hsplit : x / 2 - (m / 2 : ℕ) = ((m % 2 : ℕ) + (x - m)) / 2 := by
    have hhalves : ((m % 2 : ℕ) : ℚ) + 2 * (m / 2 : ℕ) = m := by
      exact_mod_cast Nat.mod_add_div m 2
    linarith
  show Cuts (ExtendedMantissa.accuracy ⟨m / 2, m % 2 != 0, roundBit || stickyBit⟩)
    (x / 2 - (m / 2 : ℕ))
  rw [hsplit]
  change Cuts (ExtendedMantissa.accuracy ⟨m, roundBit, stickyBit⟩) (x - m) at h
  generalize x - (m : ℚ) = rest at h ⊢
  rcases Nat.mod_two_eq_zero_or_one m with hbit | hbit <;> cases roundBit <;> cases stickyBit <;>
    simp only [ExtendedMantissa.accuracy, Cuts, hbit, Bool.or_true, Bool.or_false,
      bne_self_eq_false, Nat.reduceBNe, Nat.cast_zero, Nat.cast_one, zero_add] at h ⊢
  case inl.false.false | inr.false.false => linarith
  all_goals exact ⟨by linarith, by linarith⟩

theorem shiftRight {em : ExtendedMantissa} (h : Extends em x) (n : ℕ) :
    Extends (em >>> n) (x / 2 ^ n) := by
  show Extends (n.repeat ExtendedMantissa.shiftRightOne em) _
  induction n with
  | zero => simpa [Nat.repeat] using h
  | succ n ih =>
    rw [Nat.repeat, pow_succ, ← div_div]
    exact ih.shiftRightOne

theorem near {em : ExtendedMantissa} (h : Extends em x) : |x - em.roundedMantissa| ≤ 1 / 2 := by
  obtain ⟨m, roundBit, stickyBit⟩ := em
  cases roundBit <;> cases stickyBit <;>
    simp only [Extends, ExtendedMantissa.accuracy, Cuts] at h <;>
    simp only [ExtendedMantissa.roundedMantissa, ExtendedMantissa.accuracy,
      Accuracy.roundToNearestEven] <;> rw [abs_le] <;> push_cast
  case true.false =>
    rcases Nat.mod_two_eq_zero_or_one m with hbit | hbit <;> rw [hbit] <;> push_cast <;>
      exact ⟨by linarith, by linarith⟩
  all_goals exact ⟨by linarith, by linarith⟩

end Extends

-- ---------------------------------------------------------------------------
-- Rounding
-- ---------------------------------------------------------------------------

/-- What an unpacked double without sign stands for. Its mantissa has 53 bits
unless its last place is the smallest one. -/
inductive Holds : UnpackedFloat → ℚ → Prop where
  | zero : Holds (.zero .positive) 0
  | finite {m : ℕ} {e : ℤ} (hpos : 0 < m) (hlt : m < 2 ^ 53) (he : -1074 ≤ e)
      (hfull : 2 ^ 52 ≤ m ∨ e = -1074) : Holds (.finite .positive m e hpos) (m * 2 ^ e)

def lastPlace (m : ℕ) (e : ℤ) : ℤ := Format.binary64.targetExponent (totalExponent m e)

theorem targetExponent_eq (total : ℤ) :
    Format.binary64.targetExponent total = max (total - 53) (-1074) := rfl

theorem lastPlace_eq (m : ℕ) (e : ℤ) :
    lastPlace m e = max (totalExponent m e - 53) (-1074) := rfl

theorem shiftToTargetExponent_eq (m : ℕ) (e : ℤ) (accuracy : Accuracy) :
    shiftToTargetExponent .binary64 m e accuracy =
      (ExtendedMantissa.ofMantissaAndAccuracy m accuracy >>> (lastPlace m e - e).toNat,
        e + (lastPlace m e - e).toNat) := rfl

theorem bounds_of_cuts {accuracy : Accuracy} (hcut : Cuts accuracy (q / 2 ^ e - m)) :
    m * 2 ^ e ≤ q ∧ q < (m + 1) * 2 ^ e := by
  have hu : (0 : ℚ) < 2 ^ e := by positivity
  obtain ⟨hle, hlt⟩ := hcut.bounds
  exact ⟨(le_div_iff₀ hu).mp (by linarith), (div_lt_iff₀ hu).mp (by linarith)⟩

theorem lt_of_cuts {accuracy : Accuracy} (hcut : Cuts accuracy (q / 2 ^ e - m)) :
    q < 2 ^ totalExponent m e := by
  have hm : (m : ℚ) + 1 ≤ 2 ^ (m.log2 + 1) := by exact_mod_cast Nat.lt_log2_self
  calc q < (m + 1) * 2 ^ e := (bounds_of_cuts hcut).2
    _ ≤ 2 ^ (m.log2 + 1) * 2 ^ e := mul_le_mul_of_nonneg_right hm (by positivity)
    _ = 2 ^ totalExponent m e := by
      rw [totalExponent, ← zpow_natCast, ← zpow_add₀ two_ne_zero]
      norm_cast

theorem le_of_cuts {accuracy : Accuracy} (hm : m ≠ 0) (hcut : Cuts accuracy (q / 2 ^ e - m)) :
    2 ^ (totalExponent m e - 1) ≤ q := by
  have hlog : (2 : ℚ) ^ m.log2 ≤ m := by exact_mod_cast Nat.log2_self_le hm
  calc (2 : ℚ) ^ (totalExponent m e - 1) = 2 ^ m.log2 * 2 ^ e := by
        rw [totalExponent, ← zpow_natCast, ← zpow_add₀ two_ne_zero]
        congr 1
        ring
    _ ≤ m * 2 ^ e := mul_le_mul_of_nonneg_right hlog (by positivity)
    _ ≤ q := (bounds_of_cuts hcut).1

theorem lt_lastPlace {accuracy : Accuracy} (hcut : Cuts accuracy (q / 2 ^ e - m)) :
    q < 2 ^ 53 * 2 ^ lastPlace m e := by
  have hplace : totalExponent m e ≤ 53 + lastPlace m e := by
    rw [lastPlace_eq]
    omega
  calc q < 2 ^ totalExponent m e := lt_of_cuts hcut
    _ ≤ 2 ^ (53 + lastPlace m e) := zpow_le_zpow_right₀ (by norm_num) hplace
    _ = 2 ^ 53 * 2 ^ lastPlace m e := by
      rw [zpow_add₀ two_ne_zero]
      norm_cast

theorem lastPlace_full {accuracy : Accuracy} (hcut : Cuts accuracy (q / 2 ^ e - m))
    (he : e ≤ lastPlace m e) : 2 ^ 52 * 2 ^ lastPlace m e ≤ q ∨ lastPlace m e = -1074 := by
  by_cases hsmallest : lastPlace m e = -1074
  · exact .inr hsmallest
  have hplace : totalExponent m e - 1 = 52 + lastPlace m e := by
    rw [lastPlace_eq] at hsmallest ⊢
    omega
  have hm : m ≠ 0 := by
    rintro rfl
    rw [totalExponent, Nat.log2_zero] at hplace
    omega
  left
  calc (2 : ℚ) ^ 52 * 2 ^ lastPlace m e = 2 ^ (totalExponent m e - 1) := by
        rw [hplace, zpow_add₀ two_ne_zero]
        norm_cast
    _ ≤ q := le_of_cuts hm hcut

theorem extends_lastPlace {accuracy : Accuracy} (hcut : Cuts accuracy (q / 2 ^ e - m))
    (he : e ≤ lastPlace m e) :
    Extends (ExtendedMantissa.ofMantissaAndAccuracy m accuracy >>> (lastPlace m e - e).toNat)
      (q / 2 ^ lastPlace m e) := by
  have hshift := (Extends.ofMantissaAndAccuracy hcut).shiftRight (lastPlace m e - e).toNat
  rw [← zpow_natCast, div_div, ← zpow_add₀ two_ne_zero] at hshift
  rwa [show e + ((lastPlace m e - e).toNat : ℤ) = lastPlace m e by omega] at hshift

/-- A number cut at its last place, or behind it, has at most 53 bits there, and
its rounded mantissa is nearest to it. -/
theorem roundsTo_of_cuts {accuracy : Accuracy} (hcut : Cuts accuracy (q / 2 ^ e - m))
    (he : e ≤ lastPlace m e) {rounded : ℕ}
    (hrounded : rounded = ExtendedMantissa.roundedMantissa
      (ExtendedMantissa.ofMantissaAndAccuracy m accuracy >>> (lastPlace m e - e).toNat)) :
    rounded ≤ 2 ^ 53 ∧ (2 ^ 52 ≤ rounded ∨ lastPlace m e = -1074) ∧
      RoundsTo q (rounded * 2 ^ lastPlace m e) := by
  have hu : (0 : ℚ) < 2 ^ lastPlace m e := by positivity
  have hnear := (extends_lastPlace hcut he).near
  rw [← hrounded] at hnear
  obtain ⟨hlow, hhigh⟩ := abs_le.mp hnear
  have hupper := (div_lt_iff₀ hu).mpr (lt_lastPlace hcut)
  have hfull := lastPlace_full hcut he
  have hle : rounded ≤ 2 ^ 53 := by
    have hlt : (rounded : ℚ) < 2 ^ 53 + 1 := by linarith
    exact Nat.lt_succ_iff.mp (by exact_mod_cast hlt)
  refine ⟨hle, hfull.imp_left fun h => ?_, .of_lastPlace (le_max_right _ _) hle hfull hnear⟩
  rw [← le_div_iff₀ hu] at h
  have hlt : (2 : ℚ) ^ 52 < rounded + 1 := by linarith
  exact Nat.lt_succ_iff.mp (by exact_mod_cast hlt)

theorem shiftToTargetExponent_of_lt (hm : m < 2 ^ 53) (he : -1074 ≤ e) :
    shiftToTargetExponent .binary64 m e .exact = (⟨m, false, false⟩, e) := by
  have hlog : m.log2 ≤ 52 := by
    rcases Nat.eq_zero_or_pos m with rfl | hpos
    · simp
    · exact Nat.lt_succ_iff.mp ((Nat.log2_lt hpos.ne').mpr hm)
  have hstay : (lastPlace m e - e).toNat = 0 := by
    rw [lastPlace_eq, totalExponent]
    omega
  rw [shiftToTargetExponent_eq, hstay]
  exact Prod.ext rfl (Int.add_zero e)

theorem shiftToTargetExponent_carry (he : -1074 ≤ e) :
    shiftToTargetExponent .binary64 (2 ^ 53) e .exact = (⟨2 ^ 52, false, false⟩, e + 1) := by
  have hone : (lastPlace (2 ^ 53) e - e).toNat = 1 := by
    rw [lastPlace_eq, totalExponent, Nat.log2_two_pow]
    omega
  rw [shiftToTargetExponent_eq, hone]
  rfl

/-- The result of a rounding is a nearest double. -/
theorem holds_roundWithAccuracy {accuracy : Accuracy} (hcut : Cuts accuracy (q / 2 ^ e - m))
    (he : e ≤ lastPlace m e) :
    ∃ v, RoundsTo q v ∧ Holds (roundWithAccuracy .binary64 .positive m e accuracy) v := by
  obtain ⟨hle, hfull, hrounds⟩ := roundsTo_of_cuts hcut he rfl
  have hplace : -1074 ≤ lastPlace m e := le_max_right _ _
  have hshift : e + ((lastPlace m e - e).toNat : ℤ) = lastPlace m e := by omega
  refine ⟨_, hrounds, ?_⟩
  rw [roundWithAccuracy, shiftToTargetExponent_eq, hshift]
  dsimp only
  generalize ExtendedMantissa.roundedMantissa _ = rounded at hle hfull ⊢
  generalize lastPlace m e = place at hfull hplace ⊢
  rcases hle.lt_or_eq with hlt | rfl
  · rw [shiftToTargetExponent_of_lt hlt hplace]
    dsimp only
    split
    · next hzero =>
      rw [hzero, Nat.cast_zero, zero_mul]
      exact .zero
    · next hzero => exact .finite (Nat.pos_of_ne_zero hzero) hlt hplace hfull
  · rw [shiftToTargetExponent_carry hplace]
    have hcarry : ((2 ^ 53 : ℕ) : ℚ) * 2 ^ place = (2 ^ 52 : ℕ) * 2 ^ (place + 1) := by
      rw [zpow_add_one₀ two_ne_zero]
      push_cast
      ring
    rw [hcarry]
    show Holds (.finite .positive (2 ^ 52) (place + 1) _) _
    exact .finite (by decide) (by decide) (by omega) (.inl (by decide))

end SeriesQuery.Decimal
