import Mathlib.Tactic.SplitIfs
import SeriesQuery.Time.Instant

/-!
# The order of instants

Instants are linearly ordered, and `max` and `min` choose by that order, so
that the lemmas of the library about ordered types hold of them. Outside of leap
seconds it is the order of their nanoseconds, and a step adds to these.
-/

namespace SeriesQuery.Instant

theorem ext_place {a b : Instant} (h : a.place = b.place) : a = b := by
  have ha := a.subsecond_lt
  have hb := b.subsecond_lt
  simp only [place] at h
  exact ext (by omega) (by omega)

instance : Std.IsLinearOrder Instant where
  le_refl a := Int.le_refl a.place
  le_trans _ _ _ h h' := Int.le_trans h h'
  le_antisymm _ _ h h' := ext_place (Int.le_antisymm h h')
  le_total a b := Int.le_total a.place b.place

instance : Std.LawfulOrderLT Instant where
  lt_iff a b := by simp only [lt_def, le_def]; omega

instance : Std.LawfulOrderMax Instant where
  max_eq_or a b := by
    show (if a ≤ b then b else a) = a ∨ (if a ≤ b then b else a) = b
    split <;> simp
  max_le_iff a b c := by
    show (if a ≤ b then b else a) ≤ c ↔ a ≤ c ∧ b ≤ c
    split <;> grind

instance : Std.LawfulOrderMin Instant where
  min_eq_or a b := by
    show (if a ≤ b then a else b) = a ∨ (if a ≤ b then a else b) = b
    split <;> simp
  le_min_iff a b c := by
    show a ≤ (if b ≤ c then b else c) ↔ a ≤ b ∧ a ≤ c
    split <;> grind

theorem lt_min_iff {t a b : Instant} : t < min a b ↔ t < a ∧ t < b := by
  show t < (if a ≤ b then a else b) ↔ t < a ∧ t < b
  split <;> grind

-- ---------------------------------------------------------------------------
-- Nanoseconds
-- ---------------------------------------------------------------------------

variable {t a b c : Instant} {nanos : Int}

theorem lt_iff_nanos (ha : ¬ a.IsLeap) (hb : ¬ b.IsLeap) : a < b ↔ a.nanos < b.nanos := by
  simp only [lt_def, place, Instant.nanos, IsLeap] at *
  omega

theorem nanos_le (h : a ≤ b) (ha : ¬ a.IsLeap) : a.nanos ≤ b.nanos := by
  simp only [le_def, place, Instant.nanos, IsLeap] at *
  omega

theorem seconds_le (h : a ≤ b) : a.seconds ≤ b.seconds := by
  have ha := a.subsecond_lt
  have hb := b.subsecond_lt
  simp only [le_def, place] at h
  omega

theorem exists_at? (seconds : Int) (h : firstSecond ≤ seconds) (h' : seconds ≤ lastSecond) :
    ∃ t, at? seconds 0 = some t ∧ t.seconds = seconds ∧ t.subsecond = 0 :=
  ⟨⟨seconds, 0, h, h', .inl (by decide)⟩, at?_eq_some.mpr ⟨rfl, rfl⟩, rfl, rfl⟩

theorem first_le_nanos (t : Instant) : firstNanos ≤ t.nanos := by
  have hfirst := t.first_le
  simp only [firstSecond, firstNanos, Instant.nanos] at *
  omega

theorem nanos_le_last (h : ¬ t.IsLeap) : t.nanos ≤ lastNanos := by
  have hlast := t.le_last
  simp only [lastSecond, lastNanos, Instant.nanos, IsLeap] at *
  omega

theorem exists_nanos (nanos : Int) (h : firstNanos ≤ nanos) (h' : nanos ≤ lastNanos) :
    ∃ t : Instant, ¬ t.IsLeap ∧ t.nanos = nanos := by
  refine ⟨ofNanos nanos h h', ?_⟩
  simp only [ofNanos, IsLeap, Instant.nanos]
  omega

-- ---------------------------------------------------------------------------
-- Steps
-- ---------------------------------------------------------------------------

theorem plus?_eq_some (h : ¬ t.IsLeap) :
    t.plus? nanos = some b ↔ ¬ b.IsLeap ∧ b.nanos = t.nanos + nanos := by
  rw [plus?, if_neg h, ofNanos?_eq_some]

/-- Going back, only a short step from a leap second ends in one. -/
theorem plus?_back (h : nanos ≤ 0) : t.plus? nanos = some b ↔
    b.nanos = t.nanos + nanos ∧ (b.IsLeap ↔ t.IsLeap ∧ 1000000000 ≤ t.subsecond + nanos) := by
  have ht := t.subsecond_lt
  have hb := b.subsecond_lt
  unfold plus?
  split_ifs <;> simp only [at?_eq_some, ofNanos?_eq_some, IsLeap, Instant.nanos] at * <;> omega

theorem exists_plus?_back (h : nanos ≤ 0) (hfirst : firstNanos ≤ t.nanos + nanos) :
    ∃ b, t.plus? nanos = some b := by
  have ht := t.subsecond_lt
  by_cases hleap : t.IsLeap ∧ 1000000000 ≤ t.subsecond + nanos
  · simp only [IsLeap] at hleap
    refine ⟨⟨t.seconds, (t.subsecond + nanos).toNat, t.first_le, t.le_last, .inr (by omega)⟩,
      (plus?_back h).mpr ?_⟩
    simp only [Instant.nanos, IsLeap]
    omega
  · have hlast : t.nanos + nanos ≤ lastNanos := by
      have hsecond := t.le_last
      simp only [lastSecond, lastNanos, Instant.nanos, IsLeap] at *
      omega
    obtain ⟨b, hb, hnanos⟩ := exists_nanos _ hfirst hlast
    exact ⟨b, (plus?_back h).mpr ⟨hnanos, iff_of_false hb hleap⟩⟩

theorem lt_of_plus? (h : 0 < nanos) (hb : t.plus? nanos = some b) : t < b := by
  have ht := t.subsecond_lt
  unfold plus? at hb
  split_ifs at hb <;>
    simp only [at?_eq_some, ofNanos?_eq_some, IsLeap, Instant.nanos, lt_def, place] at * <;> omega

end SeriesQuery.Instant
