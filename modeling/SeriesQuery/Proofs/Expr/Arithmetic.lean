import SeriesQuery.Expr.Operator

/-!
# Integer arithmetic and whole numbers

What an operator answers for two integers of 64 bits, against what it makes of
the same whole numbers. A division by zero has no result, and a result that
does not fit 64 bits is an overflow. A remainder always fits; but it is computed
with its quotient, and the one quotient that does not fit, that of the lowest
integer by -1, is an overflow of the remainder too.
-/

namespace SeriesQuery

-- ---------------------------------------------------------------------------
-- Whole numbers that fit
-- ---------------------------------------------------------------------------

theorem fits_tdiv_iff {m n : Int} (hm : FitsInteger m) :
    FitsInteger (m.tdiv n) ↔ ¬ (m = lowestInteger ∧ n = -1) := by
  unfold FitsInteger lowestInteger highestInteger at *
  by_cases hunit : n = -1
  · subst hunit
    rw [Int.tdiv_neg, Int.tdiv_one]
    omega
  · by_cases hone : n = 1
    · subst hone
      rw [Int.tdiv_one]
      omega
    by_cases hzero : n = 0
    · subst hzero
      rw [Int.tdiv_zero]
      omega
    have hhalf : (m.tdiv n).natAbs ≤ m.natAbs / 2 := by
      rw [Int.natAbs_tdiv]
      exact Nat.div_le_div_left (by omega) (by decide)
    omega

theorem fits_tmod {m n : Int} (hm : FitsInteger m) (hn : FitsInteger n) :
    FitsInteger (m.tmod n) := by
  by_cases hzero : n = 0
  · rwa [hzero, Int.tmod_zero]
  · have hsize : (m.tmod n).natAbs < n.natAbs := by
      rw [Int.natAbs_tmod]
      exact Nat.mod_lt _ (Int.natAbs_pos.mpr hzero)
    unfold FitsInteger lowestInteger highestInteger at *
    omega

namespace NumericOp

-- ---------------------------------------------------------------------------
-- Operators
-- ---------------------------------------------------------------------------

/-- The result for whole numbers: a quotient is rounded toward zero, a remainder
has the sign of the dividend. -/
def exact (op : NumericOp) (m n : Int) : Int :=
  match op with
  | .add => m + n
  | .subtract => m - n
  | .multiply => m * n
  | .divide => m.tdiv n
  | .modulo => m.tmod n

abbrev DividesByZero (op : NumericOp) (n : Int) : Prop :=
  (op = .divide ∨ op = .modulo) ∧ n = 0

/-- The result does not fit 64 bits, or the quotient that comes with it. -/
abbrev Overflows (op : NumericOp) (m n : Int) : Prop :=
  ¬ FitsInteger (op.exact m n) ∨ op = .modulo ∧ m = lowestInteger ∧ n = -1

theorem fit_of_fits {op : NumericOp} (h : FitsInteger n) : ∃ i, op.fit n = .ok i ∧ i.toInt = n := by
  cases hi : integer? n with
  | none => exact absurd h (integer?_eq_none_iff.mp hi)
  | some i => exact ⟨i, by rw [fit, hi], toInt_of_integer? hi⟩

theorem fit_of_not_fits {op : NumericOp} (h : ¬ FitsInteger n) :
    op.fit n = .error (.overflow op.name) := by
  rw [fit, integer?_eq_none_iff.mpr h]

theorem integer_divisionByZero {op : NumericOp} {a b : Int64} (h : op.DividesByZero b.toInt) :
    op.integer a b = .error .divisionByZero := by
  obtain ⟨hop, hb⟩ := h
  have hb : b = 0 := Int64.toInt_inj.mp hb
  rcases hop with rfl | rfl <;> exact if_pos hb

theorem integer_eq_fit {op : NumericOp} {a b : Int64} (h : ¬ op.DividesByZero b.toInt)
    (hop : op ≠ .modulo) : op.integer a b = op.fit (op.exact a.toInt b.toInt) := by
  cases op with
  | divide =>
    have hb : b ≠ 0 := fun hb => h ⟨.inl rfl, by rw [hb]; rfl⟩
    exact if_neg hb
  | modulo => exact absurd rfl hop
  | _ => rfl

theorem integer_modulo {a b : Int64} (hb : b.toInt ≠ 0) :
    modulo.integer a b =
      modulo.fit (a.toInt.tdiv b.toInt) >>= fun _ => modulo.fit (a.toInt.tmod b.toInt) := by
  have hb : b ≠ 0 := fun h => hb (by rw [h]; rfl)
  exact if_neg hb

theorem integer_cases (op : NumericOp) (a b : Int64) :
    (op.DividesByZero b.toInt ∧ op.integer a b = .error .divisionByZero) ∨
    (¬ op.DividesByZero b.toInt ∧ op.Overflows a.toInt b.toInt ∧
      op.integer a b = .error (.overflow op.name)) ∨
    (¬ op.DividesByZero b.toInt ∧ ¬ op.Overflows a.toInt b.toInt ∧
      ∃ r, op.integer a b = .ok r ∧ r.toInt = op.exact a.toInt b.toInt) := by
  by_cases hzero : op.DividesByZero b.toInt
  · exact .inl ⟨hzero, integer_divisionByZero hzero⟩
  refine .inr ?_
  by_cases hop : op = .modulo
  · subst hop
    have hremainder : FitsInteger (modulo.exact a.toInt b.toInt) :=
      fits_tmod (fits_toInt a) (fits_toInt b)
    rw [integer_modulo fun hb => hzero ⟨.inr rfl, hb⟩]
    by_cases hquotient : FitsInteger (a.toInt.tdiv b.toInt)
    · obtain ⟨_, hfit, -⟩ := fit_of_fits hquotient
      rw [hfit]
      refine .inr ⟨hzero, ?_, fit_of_fits hremainder⟩
      simpa [Overflows, hremainder] using (fits_tdiv_iff (fits_toInt a)).mp hquotient
    · have hlowest := Decidable.not_not.mp (mt (fits_tdiv_iff (fits_toInt a)).mpr hquotient)
      rw [fit_of_not_fits hquotient]
      exact .inl ⟨hzero, .inr ⟨rfl, hlowest⟩, rfl⟩
  · rw [integer_eq_fit hzero hop]
    by_cases hfits : FitsInteger (op.exact a.toInt b.toInt)
    · exact .inr ⟨hzero, by simp [Overflows, hfits, hop], fit_of_fits hfits⟩
    · exact .inl ⟨hzero, .inl hfits, fit_of_not_fits hfits⟩

/-- Two integers: an operator fails with a division by zero if it divides and
the right one is zero, it fails with an overflow if the result does not fit 64
bits or if it is the remainder of the lowest integer by -1, and otherwise it
returns the result. -/
theorem evaluate_integers_exact (op : NumericOp) (a b : Int64) :
    (op.evaluate (.integer a) (.integer b) = .error .divisionByZero ↔
      op.DividesByZero b.toInt) ∧
    ((∃ operation, op.evaluate (.integer a) (.integer b) = .error (.overflow operation)) ↔
      ¬ op.DividesByZero b.toInt ∧ op.Overflows a.toInt b.toInt) ∧
    ((∃ r, op.evaluate (.integer a) (.integer b) = .ok (.integer r) ∧
        r.toInt = op.exact a.toInt b.toInt) ↔
      ¬ op.DividesByZero b.toInt ∧ ¬ op.Overflows a.toInt b.toInt) := by
  have hevaluate : op.evaluate (.integer a) (.integer b) = (op.integer a b).map .integer := rfl
  rw [hevaluate]
  rcases op.integer_cases a b with ⟨hzero, h⟩ | ⟨hzero, hover, h⟩ | ⟨hzero, hover, r, h, hr⟩
  all_goals rw [h]
  · exact ⟨iff_of_true rfl hzero, iff_of_false nofun fun h => h.1 hzero,
      iff_of_false nofun fun h => h.1 hzero⟩
  · exact ⟨iff_of_false nofun hzero, iff_of_true ⟨_, rfl⟩ ⟨hzero, hover⟩,
      iff_of_false nofun fun h => h.2 hover⟩
  · exact ⟨iff_of_false nofun hzero, iff_of_false nofun fun h => hover h.2,
      iff_of_true ⟨r, rfl, hr⟩ ⟨hzero, hover⟩⟩

/-- The remainder 0 of the lowest integer by -1 fits, and is an overflow. -/
theorem lowest_remainder_overflows :
    modulo.evaluate (.integer Int64.minValue) (.integer (-1)) = .error (.overflow "modulo") ∧
      ¬ modulo.DividesByZero (-1 : Int64).toInt ∧
      modulo.exact Int64.minValue.toInt (-1 : Int64).toInt = 0 ∧ FitsInteger 0 := by
  refine ⟨rfl, ?_, ?_, ?_⟩ <;> decide

end NumericOp

end SeriesQuery
