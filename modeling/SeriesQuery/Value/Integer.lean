/-!
# Integers of 64 bits

Integer values have 64 bits. Arithmetic on them is computed on whole numbers, which are
unbounded, and the result is kept only if it fits.
-/

namespace SeriesQuery

def lowestInteger : Int := -9223372036854775808
def highestInteger : Int := 9223372036854775807

/-- Whether a whole number is an integer of 64 bits. -/
abbrev FitsInteger (n : Int) : Prop := lowestInteger ≤ n ∧ n ≤ highestInteger

def integer? (n : Int) : Option Int64 :=
  if FitsInteger n then some (Int64.ofInt n) else none

theorem integer?_eq_none_iff {n : Int} : integer? n = none ↔ ¬ FitsInteger n := by
  simp [integer?]

theorem toInt_of_integer? {n : Int} {i : Int64} (h : integer? n = some i) : i.toInt = n := by
  unfold integer? at h
  split at h
  · next fits =>
    cases h
    exact Int64.toInt_ofInt_of_le fits.1 (Int.lt_add_one_of_le fits.2)
  · cases h

theorem fits_toInt (i : Int64) : FitsInteger i.toInt :=
  ⟨i.le_toInt, Int.le_of_lt_add_one i.toInt_lt⟩

@[simp] theorem integer?_toInt (i : Int64) : integer? i.toInt = some i := by
  rw [integer?, if_pos (fits_toInt i), Int64.ofInt_toInt]

end SeriesQuery
