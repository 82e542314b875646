import SeriesQuery.Proofs.Decimal.Rounding

/-!
# Decimals without sign

A decimal without sign that is no infinity stands for a rational number. Quotients,
products and whole numbers are rounded once, comparisons are those of the numbers,
and so quotients keep the order of their dividends although each step rounds.
-/

namespace SeriesQuery.Decimal

open Float.Model (Format UnpackedFloat totalExponent)
open Float.Model.UnpackedFloat

variable {q r u v w : ℚ} {f g : UnpackedFloat} {m : ℕ} {e : ℤ}

-- ---------------------------------------------------------------------------
-- Packed doubles
-- ---------------------------------------------------------------------------

theorem unpackSign_packComponents (sign : Sign) (exponent : BitVec 11) (mantissa : BitVec 52) :
    unpackSign (packComponents .binary64 sign exponent mantissa) = sign.toBitVec := by
  ext i hi
  obtain rfl : i = 0 := by omega
  simp only [unpackSign, packComponents, BitVec.extractLsb, BitVec.getElem_cast,
    BitVec.getElem_extractLsb', BitVec.getLsbD_append]
  rfl

theorem toNat_hiddenBit_append (hlow : 2 ^ 52 ≤ m) (hlt : m < 2 ^ 53) :
    (1#1 ++ BitVec.ofNat 52 m).toNat = m := by
  rw [BitVec.toNat_append, ← Nat.shiftLeft_add_eq_or_of_lt (BitVec.isLt _), BitVec.toNat_ofNat]
  show 2 ^ 52 + m % 2 ^ 52 = m
  omega

theorem unpack_pack_normal (hpos : 0 < m) (hlow : 2 ^ 52 ≤ m) (hlt : m < 2 ^ 53) (he : -1074 ≤ e)
    (hhigh : e ≤ 971) :
    UnpackedFloat.unpack .binary64 (UnpackedFloat.pack .binary64 (.finite .positive m e hpos)) =
      .finite .positive m e hpos := by
  have hlog : m.log2 = 52 := (Nat.log2_eq_iff hpos.ne').mpr ⟨hlow, hlt⟩
  obtain ⟨biased, hbiased⟩ : ∃ biased : ℕ, (biased : ℤ) = e + 1075 := ⟨(e + 1075).toNat, by omega⟩
  have hexponent : (BitVec.ofNat 11 biased).toNat = biased :=
    Nat.mod_eq_of_lt (show biased < 2048 by omega)
  have hzero : BitVec.ofNat 11 biased ≠ 0#11 := fun h => by
    rw [h] at hexponent
    simp at hexponent
    omega
  have hlast : BitVec.ofNat 11 biased ≠ -1#11 := fun h => by
    rw [h] at hexponent
    simp at hexponent
    omega
  have hpack : UnpackedFloat.pack .binary64 (.finite .positive m e hpos) =
      packComponents .binary64 .positive (BitVec.ofNat 11 biased) (BitVec.ofNat 52 m) := by
    obtain rfl : (e + 1023 + 52).toNat = biased := by omega
    exact (if_neg (show ¬ 2 ^ 11 ≤ (e + 1023 + 52).toNat + 1 by omega)).trans
      (if_pos (show m.log2 + 1 = 53 by omega))
  rw [hpack]
  simp only [UnpackedFloat.unpack, unpackMantissa_packComponents, unpackExponent_packComponents,
    unpackSign_packComponents, hzero, hlast, if_false, toNat_hiddenBit_append hlow hlt, hexponent]
  show UnpackedFloat.finite .positive m ((biased : ℤ) - (1023 + 52)) _ = _
  congr 1
  omega

theorem unpack_pack_subnormal (hpos : 0 < m) (hlt : m < 2 ^ 52) :
    UnpackedFloat.unpack .binary64 (UnpackedFloat.pack .binary64
      (.finite .positive m (-1074) hpos)) = .finite .positive m (-1074) hpos := by
  have hlog : m.log2 < 52 := (Nat.log2_lt hpos.ne').mpr hlt
  have hmantissa : (BitVec.ofNat 52 m).toNat = m := Nat.mod_eq_of_lt hlt
  have hzero : BitVec.ofNat 52 m ≠ 0#52 := fun h => by
    rw [h] at hmantissa
    simp at hmantissa
    omega
  have hpack : UnpackedFloat.pack .binary64 (.finite .positive m (-1074) hpos) =
      packComponents .binary64 .positive 0#11 (BitVec.ofNat 52 m) := by
    have hbits : m.log2 + 1 ≠ Format.binary64.mantissaBits := show m.log2 + 1 ≠ 53 by omega
    rw [UnpackedFloat.pack, if_neg (by decide), if_neg hbits]
  rw [hpack]
  simp only [UnpackedFloat.unpack, unpackMantissa_packComponents, unpackExponent_packComponents,
    unpackSign_packComponents, hzero, dif_neg, hmantissa, not_false_eq_true]
  rfl

-- ---------------------------------------------------------------------------
-- The order of unpacked doubles
-- ---------------------------------------------------------------------------

theorem mul_zpow_lt_of_exponent_lt {m n : ℕ} {e t : ℤ} (hm : m < 2 ^ 53)
    (hn : 2 ^ 52 ≤ n) (hlt : e < t) : (m : ℚ) * 2 ^ e < n * 2 ^ t := by
  have hm' : (m : ℚ) < 2 ^ 53 := by exact_mod_cast hm
  have hn' : (2 : ℚ) ^ 52 ≤ n := by exact_mod_cast hn
  have hpow : (2 : ℚ) ^ (e + 1) ≤ 2 ^ t := zpow_le_zpow_right₀ (by norm_num) (by omega)
  calc (m : ℚ) * 2 ^ e < 2 ^ 53 * 2 ^ e := mul_lt_mul_of_pos_right hm' (by positivity)
    _ = 2 ^ 52 * 2 ^ (e + 1) := by
      rw [zpow_add_one₀ two_ne_zero]
      ring
    _ ≤ n * 2 ^ t := mul_le_mul hn' hpow (by positivity) (by positivity)

theorem compare_mul_zpow {m n : ℕ} : compare ((m : ℚ) * 2 ^ e) (n * 2 ^ e) = compare m n := by
  have hu : (0 : ℚ) < 2 ^ e := by positivity
  rcases lt_trichotomy m n with hlt | rfl | hgt
  · rw [compare_lt_iff_lt.mpr hlt]
    exact compare_lt_iff_lt.mpr (mul_lt_mul_of_pos_right (by exact_mod_cast hlt) hu)
  · rw [compare_eq_iff_eq.mpr rfl, compare_eq_iff_eq.mpr rfl]
  · rw [compare_gt_iff_gt.mpr hgt]
    exact compare_gt_iff_gt.mpr (mul_lt_mul_of_pos_right (by exact_mod_cast hgt) hu)

namespace Holds

theorem isDouble (h : Holds f v) : IsDouble v := by
  cases h with
  | zero => exact ⟨0, 0, by decide, by decide, by simp⟩
  | finite hpos hlt he hfull => exact ⟨_, _, hlt.le, he, rfl⟩

theorem nonneg (h : Holds f v) : 0 ≤ v := by
  cases h with
  | zero => exact le_refl _
  | finite => positivity

/-- Packing loses nothing of a double that is not too large. -/
theorem unpack_pack (h : Holds f v) (hv : v < 2 ^ 1024) : (Float.Model.pack f).unpack = f := by
  cases h with
  | zero => rfl
  | @finite m e hpos hlt he hfull =>
    by_cases hlow : 2 ^ 52 ≤ m
    · refine unpack_pack_normal hpos hlow hlt he ?_
      by_contra! hbig
      have hm : (2 : ℚ) ^ 52 ≤ m := by exact_mod_cast hlow
      have hpow : (2 : ℚ) ^ 972 ≤ 2 ^ e := by
        rw [← zpow_natCast]
        exact zpow_le_zpow_right₀ (by norm_num) (by exact_mod_cast hbig)
      have hle : (2 : ℚ) ^ 52 * 2 ^ 972 ≤ m * 2 ^ e :=
        mul_le_mul hm hpow (by positivity) (by positivity)
      rw [← pow_add] at hle
      exact absurd hv (not_lt.mpr hle)
    · obtain rfl := hfull.resolve_left hlow
      exact unpack_pack_subnormal hpos (Nat.lt_of_not_le hlow)

theorem compare_eq (hf : Holds f v) (hg : Holds g w) : f.compare g = some (compare v w) := by
  cases hf with
  | zero =>
    cases hg with
    | zero => rfl
    | finite hpos =>
      exact congrArg some (compare_lt_iff_lt.mpr (by positivity)).symm
  | @finite m e hpos hlt he hfull =>
    cases hg with
    | zero => exact congrArg some (compare_gt_iff_gt.mpr (by positivity)).symm
    | @finite n t hpos' hlt' he' hfull' =>
      show some ((compare e t).then (compare m n)) = _
      congr 1
      rcases lt_trichotomy e t with hexp | rfl | hexp
      · rw [compare_lt_iff_lt.mpr hexp]
        exact (compare_lt_iff_lt.mpr
          (mul_zpow_lt_of_exponent_lt hlt (hfull'.resolve_right (by omega)) hexp)).symm
      · rw [compare_eq_iff_eq.mpr rfl]
        exact compare_mul_zpow.symm
      · rw [compare_gt_iff_gt.mpr hexp]
        exact (compare_gt_iff_gt.mpr
          (mul_zpow_lt_of_exponent_lt hlt' (hfull.resolve_right (by omega)) hexp)).symm

theorem le_iff (hf : Holds f v) (hg : Holds g w) : f.le g = true ↔ v ≤ w := by
  simp [UnpackedFloat.le, hf.compare_eq hg, Ordering.isLE_iff_ne_gt, compare_le_iff_le]

theorem beq_iff (hf : Holds f v) (hg : Holds g w) : f.beq g = true ↔ v = w := by
  simp [UnpackedFloat.beq, hf.compare_eq hg]

theorem unique (hf : Holds f v) (hg : Holds g w) (heq : v = w) : f = g := by
  have hcompare := hf.compare_eq hg
  rw [compare_eq_iff_eq.mpr heq] at hcompare
  cases hf with
  | zero =>
    cases hg with
    | zero => rfl
    | finite => cases hcompare
  | finite =>
    cases hg with
    | zero => cases hcompare
    | finite =>
      obtain ⟨hexponent, hmantissa⟩ := Ordering.then_eq_eq.mp (Option.some.inj hcompare)
      obtain rfl := compare_eq_iff_eq.mp hexponent
      obtain rfl := compare_eq_iff_eq.mp hmantissa
      rfl

end Holds

-- ---------------------------------------------------------------------------
-- Arithmetic
-- ---------------------------------------------------------------------------

theorem le_lastPlace (h : 2 ^ 52 ≤ m ∨ e ≤ -1074) : e ≤ lastPlace m e := by
  rw [lastPlace_eq, totalExponent]
  rcases h with hfull | hsmallest
  · have hlog := (Nat.le_log2 (by omega)).mpr hfull
    omega
  · omega

theorem full_le_div {n k : ℕ} (hm : 0 < m) (hn : 0 < n) (hk : n.log2 + 53 ≤ m.log2 + k) :
    2 ^ 52 ≤ (m <<< k) / n := by
  rw [Nat.le_div_iff_mul_le hn, Nat.shiftLeft_eq]
  calc 2 ^ 52 * n ≤ 2 ^ 52 * 2 ^ (n.log2 + 1) := Nat.mul_le_mul_left _ Nat.lt_log2_self.le
    _ = 2 ^ (n.log2 + 53) := by
      rw [← Nat.pow_add]
      congr 1
      omega
    _ ≤ 2 ^ (m.log2 + k) := Nat.pow_le_pow_right (by decide) hk
    _ = 2 ^ m.log2 * 2 ^ k := Nat.pow_add ..
    _ ≤ m * 2 ^ k := Nat.mul_le_mul_right _ (Nat.log2_self_le hm.ne')

theorem cuts_div {n k : ℕ} {t place : ℤ} (hn : 0 < n) (hk : e - t = place + k) :
    Cuts (accuracyOfFraction ((m <<< k) % n) n)
      (m * 2 ^ e / (n * 2 ^ t) / 2 ^ place - ((m <<< k) / n : ℕ)) := by
  have hn' : (n : ℚ) ≠ 0 := by exact_mod_cast hn.ne'
  have hquotient : (m : ℚ) * 2 ^ e / (n * 2 ^ t) / 2 ^ place = (m <<< k : ℕ) / n := by
    obtain rfl : e = t + place + k := by omega
    rw [Nat.shiftLeft_eq, zpow_add₀ two_ne_zero, zpow_add₀ two_ne_zero, zpow_natCast]
    push_cast
    field_simp
  have hrest : ((m <<< k : ℕ) : ℚ) / n - ((m <<< k) / n : ℕ) = ((m <<< k) % n : ℕ) / n := by
    have hsplit : (((m <<< k) % n : ℕ) : ℚ) + n * ((m <<< k) / n : ℕ) = (m <<< k : ℕ) := by
      exact_mod_cast Nat.mod_add_div (m <<< k) n
    rw [← hsplit]
    field_simp
    ring
  rw [hquotient, hrest]
  exact cuts_accuracyOfFraction (Nat.mod_lt _ hn)

namespace Holds

theorem div (hf : Holds f q) (hg : Holds g r) (hr : 0 < r) :
    ∃ v, RoundsTo (q / r) v ∧ Holds (UnpackedFloat.div .binary64 f g) v := by
  cases hg with
  | zero => exact absurd hr (lt_irrefl _)
  | @finite n t hpos' hlt' he' hfull' =>
    cases hf with
    | zero =>
      rw [zero_div]
      exact ⟨0, .of_isDouble zero.isDouble, .zero⟩
    | @finite m e hpos hlt he hfull =>
      refine holds_roundWithAccuracy (cuts_div hpos' (by omega)) (le_lastPlace ?_)
      rw [targetExponent_eq, totalExponent, totalExponent]
      by_cases hsmallest :
          min (e - t) (max (m.log2 + 1 + e - (n.log2 + 1 + t) - 53) (-1074)) ≤ -1074
      · exact .inr hsmallest
      · exact .inl (full_le_div hpos hpos' (by omega))

theorem mul (hf : Holds f q) (hg : Holds g r) :
    ∃ v, RoundsTo (q * r) v ∧ Holds (UnpackedFloat.mul .binary64 f g) v := by
  cases hf with
  | zero =>
    rw [zero_mul]
    refine ⟨0, .of_isDouble zero.isDouble, ?_⟩
    cases hg <;> exact .zero
  | @finite m e hpos hlt he hfull =>
    cases hg with
    | zero =>
      rw [mul_zero]
      exact ⟨0, .of_isDouble zero.isDouble, .zero⟩
    | @finite n t hpos' hlt' he' hfull' =>
      refine holds_roundWithAccuracy ?_ (le_lastPlace ?_)
      · show _ = (0 : ℚ)
        rw [zpow_add₀ two_ne_zero]
        push_cast
        field_simp
        ring
      · by_cases hsmallest : e + t ≤ -1074
        · exact .inr hsmallest
        rcases hfull with hfull | rfl
        · exact .inl (hfull.trans (Nat.le_mul_of_pos_right m hpos'))
        · exact .inl ((hfull'.resolve_right (by omega)).trans (Nat.le_mul_of_pos_left n hpos))

end Holds

theorem holds_round (hm : 0 < m) :
    ∃ v, RoundsTo (m * 2 ^ e) v ∧ Holds (UnpackedFloat.round .binary64 .positive m e) v := by
  refine holds_roundWithAccuracy ?_ ?_
  · show _ = (0 : ℚ)
    rw [zpow_sub₀ two_ne_zero, zpow_natCast, Nat.shiftLeft_eq]
    push_cast
    field_simp
    ring
  · rw [targetExponent_eq, totalExponent]
    by_cases hlong : e ≤ max (m.log2 + 1 + e - 53) (-1074)
    · rw [show (e - max (m.log2 + 1 + e - 53) (-1074)).toNat = 0 by omega, Nat.shiftLeft_zero,
        lastPlace_eq, totalExponent]
      omega
    · refine le_lastPlace ?_
      by_cases hsmallest : m.log2 + 1 + e - 53 ≤ -1074
      · right
        omega
      · left
        rw [Nat.shiftLeft_eq]
        calc 2 ^ 52 = 2 ^ m.log2 * 2 ^ (e - max (m.log2 + 1 + e - 53) (-1074)).toNat := by
              rw [← Nat.pow_add]
              congr 1
              omega
          _ ≤ _ := Nat.mul_le_mul_right _ (Nat.log2_self_le hm.ne')

theorem holds_ofNat (n : ℕ) : ∃ v, RoundsTo n v ∧ Holds (UnpackedFloat.ofNat .binary64 n) v := by
  rcases Nat.eq_zero_or_pos n with rfl | hn
  · rw [Nat.cast_zero]
    exact ⟨0, .of_isDouble Holds.zero.isDouble, .zero⟩
  · rw [UnpackedFloat.ofNat, UnpackedFloat.ofInt, UnpackedFloat.normalize,
      compare_gt_iff_gt.mpr (by omega)]
    obtain ⟨v, hv, hholds⟩ := holds_round (e := 0) hn
    exact ⟨v, by simpa using hv, hholds⟩

theorem holds_ofScientific {n : ℕ} (hn : 2 ^ 53 ≤ n) :
    ∃ v, RoundsTo n v ∧ Holds (UnpackedFloat.ofScientific .binary64 n 0) v := by
  have hsmall : ¬ (0 : ℤ) < -(2 ^ 11 + n.log2) := by omega
  rw [UnpackedFloat.ofScientific, dif_neg (by omega), if_neg (by decide), if_neg hsmall,
    if_pos (by decide)]
  simp only [UnpackedFloat.mul]
  refine holds_roundWithAccuracy ?_ (le_lastPlace (.inl ?_))
  · show (n : ℚ) / 2 ^ (-53 + 0 : ℤ) - (n <<< 53 * 10 ^ 0 : ℕ) = 0
    rw [Nat.shiftLeft_eq, add_zero, zpow_neg, div_inv_eq_mul]
    push_cast
    norm_num
  · show 2 ^ 52 ≤ n <<< 53 * 10 ^ 0
    rw [Nat.shiftLeft_eq]
    omega

-- ---------------------------------------------------------------------------
-- Parts of whole numbers
-- ---------------------------------------------------------------------------

theorem part_le (hq : 0 ≤ q) (hbound : q ≤ 2 ^ 64) (ht : 1 ≤ t) : q / t ≤ 2 ^ 1023 :=
  calc q / t ≤ q := div_le_self hq ht
    _ ≤ 2 ^ 64 := hbound
    _ ≤ 2 ^ 1023 := pow_le_pow_right₀ (by norm_num) (by decide)

/-- Neither rounding a whole number nor rounding a part of it gives zero for
another number. -/
theorem RoundsTo.part_eq_zero {n : ℤ} (hu : RoundsTo n u) (hnonneg : 0 ≤ n)
    (hv : RoundsTo (u / t) v) (ht : 1 ≤ t) (hlarge : t ≤ 2 ^ 64) : v = 0 ↔ n = 0 := by
  have hpos : 0 < t := by linarith
  refine ⟨fun hzero => ?_, ?_⟩
  · by_contra hne
    have hone : ((1 : ℕ) : ℚ) ≤ u := by
      refine hu.double_le (isDouble_natCast (by decide)) ?_
      exact_mod_cast (show 1 ≤ n by omega)
    have hleast : (2 : ℚ) ^ (-64 : ℤ) ≤ u / t := by
      rw [zpow_neg, ← one_div, div_le_div_iff₀ (by positivity) hpos]
      push_cast at hone
      norm_num at hlarge ⊢
      linarith
    have hv' := hv.double_le (isDouble_zpow (by decide)) hleast
    rw [hzero] at hv'
    exact absurd hv' (not_le.mpr (by positivity))
  · rintro rfl
    obtain rfl := hu.eq_of_isDouble (by exact_mod_cast isDouble_natCast (Nat.zero_le _))
    rw [Int.cast_zero, zero_div] at hv
    exact hv.eq_of_isDouble (by exact_mod_cast isDouble_natCast (Nat.zero_le _))

-- ---------------------------------------------------------------------------
-- Decimals
-- ---------------------------------------------------------------------------

/-- The decimal has no sign and stands for a number. -/
def Size (x : Float) (v : ℚ) : Prop := Holds x.toModel.unpack v

theorem size_pack (hrounds : RoundsTo q v) (hholds : Holds f v) (hq : q ≤ 2 ^ 1023) :
    Size (.ofModel (.pack f)) v := by
  have hv : v ≤ 2 ^ 1023 := by
    refine hrounds.le_double ?_ hq
    have hdouble := isDouble_zpow (show -1074 ≤ 1023 by decide)
    rwa [zpow_ofNat] at hdouble
  show Holds (Float.Model.pack f).unpack v
  rwa [hholds.unpack_pack (hv.trans_lt (pow_lt_pow_right₀ (by norm_num) (by decide)))]

namespace Size

variable {x y z : Float}

theorem le_iff (hx : Size x v) (hy : Size y w) : x ≤ y ↔ v ≤ w :=
  decide_eq_true_iff.trans (Holds.le_iff hx hy)

theorem beq_iff (hx : Size x v) (hy : Size y w) : (x == y) = true ↔ v = w := Holds.beq_iff hx hy

theorem nonneg (hx : Size x v) : 0 ≤ v := Holds.nonneg hx

theorem le_trans (hx : Size x q) (hy : Size y r) (hz : Size z t) (hxy : x ≤ y) (hyz : y ≤ z) :
    x ≤ z :=
  (hx.le_iff hz).mpr (((hx.le_iff hy).mp hxy).trans ((hy.le_iff hz).mp hyz))

theorem div (hx : Size x q) (hy : Size y r) (hr : 0 < r) (hsmall : q / r ≤ 2 ^ 1023) :
    ∃ v, RoundsTo (q / r) v ∧ Size (x / y) v := by
  obtain ⟨v, hrounds, hholds⟩ := Holds.div hx hy hr
  exact ⟨v, hrounds, size_pack hrounds hholds hsmall⟩

theorem mul (hx : Size x q) (hy : Size y r) (hsmall : q * r ≤ 2 ^ 1023) :
    ∃ v, RoundsTo (q * r) v ∧ Size (x * y) v := by
  obtain ⟨v, hrounds, hholds⟩ := Holds.mul hx hy
  exact ⟨v, hrounds, size_pack hrounds hholds hsmall⟩

theorem div_congr (hx : Size x q) (hy : Size y q) : x / z = y / z := by
  show Float.ofModel (.pack (UnpackedFloat.div .binary64 x.toModel.unpack z.toModel.unpack)) =
    Float.ofModel (.pack (UnpackedFloat.div .binary64 y.toModel.unpack z.toModel.unpack))
  rw [Holds.unique hx hy rfl]

theorem div_mono (hx : Size x q) (hy : Size y r) (hz : Size z t) (ht : 0 < t)
    (hsmall : r / t ≤ 2 ^ 1023) (hle : q ≤ r) : x / z ≤ y / z := by
  obtain ⟨w, hw, hsize⟩ := hy.div hz ht hsmall
  rcases hle.lt_or_eq with hlt | rfl
  · have hquotients : q / t < r / t := div_lt_div_of_pos_right hlt ht
    obtain ⟨v, hv, hsize'⟩ := hx.div hz ht (hquotients.le.trans hsmall)
    exact (hsize'.le_iff hsize).mpr (hv.mono hw hquotients)
  · rw [div_congr hx hy]
    exact (hsize.le_iff hsize).mpr le_rfl

theorem one : Size (Float.ofBits 0x3FF0000000000000) 1 := by
  have h : Size (Float.ofBits 0x3FF0000000000000) ((2 ^ 52 : ℕ) * 2 ^ (-52 : ℤ)) :=
    .finite (by decide) (by decide) (by decide) (.inl (by decide))
  convert h using 1
  norm_num

theorem ofNat {n : ℕ} (hn : n < 2 ^ 64) : ∃ v, RoundsTo n v ∧ Size (.ofNat n) v := by
  have hsmall : (n : ℚ) ≤ 2 ^ 1023 := by
    calc (n : ℚ) ≤ 2 ^ 64 := by exact_mod_cast hn.le
      _ ≤ 2 ^ 1023 := pow_le_pow_right₀ (by norm_num) (by decide)
  show ∃ v, RoundsTo n v ∧ Size (Float.ofScientific n false 0) v
  by_cases hexact : n < 2 ^ 53
  · rw [Float.ofScientific, dif_pos ⟨hexact, by decide⟩]
    obtain ⟨v, hrounds, hholds⟩ := holds_ofNat n
    obtain rfl := hrounds.eq_of_isDouble (isDouble_natCast hexact.le)
    have hword : n.toUInt64.toNat = n := Nat.mod_eq_of_lt hn
    have hsize : Size n.toUInt64.toFloat n := by
      show Size (.ofModel (.pack (UnpackedFloat.ofNat .binary64 n.toUInt64.toNat))) n
      rw [hword]
      exact size_pack hrounds hholds hsmall
    obtain ⟨v, hproduct, hsize⟩ := hsize.mul one ((mul_one _).trans_le hsmall)
    rw [mul_one] at hproduct
    exact ⟨v, hproduct, hsize⟩
  · rw [Float.ofScientific, dif_neg (fun h => hexact h.1)]
    obtain ⟨v, hrounds, hholds⟩ := holds_ofScientific (Nat.le_of_not_lt hexact)
    exact ⟨v, hrounds, size_pack hrounds hholds hsmall⟩

theorem ofNat_exact {n : ℕ} (hn : n ≤ 2 ^ 53) : Size (.ofNat n) n := by
  obtain ⟨v, hrounds, hsize⟩ := ofNat (show n < 2 ^ 64 by omega)
  rwa [hrounds.eq_of_isDouble (isDouble_natCast hn)] at hsize

theorem zero : Size 0 0 := by
  have hzero : Size 0 (0 : ℕ) := ofNat_exact (by decide)
  rwa [Nat.cast_zero] at hzero

theorem beq_zero_iff (hx : Size x v) : (x == 0) = true ↔ v = 0 := hx.beq_iff zero

theorem not_lt_zero (hx : Size x v) : ¬ x < 0 := by
  have hnone : x.toModel.unpack.compare (Float.toModel 0).unpack ≠ some .lt := by
    rw [Holds.compare_eq hx zero]
    exact fun hlt => absurd (compare_lt_iff_lt.mp (Option.some.inj hlt)) (not_lt.mpr hx.nonneg)
  exact fun hlt => hnone (eq_of_beq (of_decide_eq_true hlt))

theorem ofInt {n : ℤ} (hnonneg : 0 ≤ n) (hn : n < 2 ^ 64) :
    ∃ v, RoundsTo n v ∧ v ≤ 2 ^ 64 ∧ Size (.ofInt n) v := by
  obtain ⟨k, rfl⟩ := Int.eq_ofNat_of_zero_le hnonneg
  obtain ⟨v, hrounds, hsize⟩ := ofNat (show k < 2 ^ 64 by exact_mod_cast hn)
  have hdouble := isDouble_zpow (show -1074 ≤ 64 by decide)
  rw [zpow_ofNat] at hdouble
  exact ⟨v, hrounds, hrounds.le_double hdouble (by exact_mod_cast hn.le), hsize⟩

theorem part {n : ℤ} (hnonneg : 0 ≤ n) (hn : n < 2 ^ 64) (hz : Size z t) (ht : 1 ≤ t)
    (hlarge : t ≤ 2 ^ 64) : ∃ v, Size (.ofInt n / z) v ∧ (v = 0 ↔ n = 0) := by
  obtain ⟨u, hu, hbound, hsize⟩ := ofInt hnonneg hn
  have hpos : 0 < t := by linarith
  obtain ⟨v, hv, hpart⟩ := hsize.div hz hpos (part_le hsize.nonneg hbound ht)
  exact ⟨v, hpart, hu.part_eq_zero hnonneg hv ht hlarge⟩

theorem part_mono {a b : ℤ} (ha : 0 ≤ a) (hle : a ≤ b) (hb : b < 2 ^ 64) (hz : Size z t)
    (ht : 1 ≤ t) : Float.ofInt a / z ≤ .ofInt b / z := by
  obtain ⟨w, hw, hbound, hsize⟩ := ofInt (ha.trans hle) hb
  have hsmall := part_le hsize.nonneg hbound ht
  have hpos : 0 < t := by linarith
  rcases hle.lt_or_eq with hlt | rfl
  · obtain ⟨v, hv, -, hsize'⟩ := ofInt ha (hlt.trans hb)
    exact div_mono hsize' hsize hz hpos hsmall (hv.mono hw (by exact_mod_cast hlt))
  · exact div_mono hsize hsize hz hpos hsmall le_rfl

theorem ratio (hx : Size x q) (hy : Size y r) (hr : 0 < r) (hle : q ≤ r) :
    0 ≤ x / y ∧ x / y ≤ 1 := by
  have hone : q / r ≤ 1 := (div_le_one hr).mpr hle
  obtain ⟨v, hv, hsize⟩ := hx.div hy hr (hone.trans (one_le_pow₀ (by norm_num)))
  have hunit : Size 1 (1 : ℕ) := ofNat_exact (by decide)
  refine ⟨(zero.le_iff hsize).mpr hsize.nonneg, (hsize.le_iff hunit).mpr ?_⟩
  exact hv.le_double (isDouble_natCast (by decide)) (by rwa [Nat.cast_one])

end Size

end SeriesQuery.Decimal
