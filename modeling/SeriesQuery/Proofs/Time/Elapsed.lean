import SeriesQuery.Proofs.Decimal.Sign
import SeriesQuery.Proofs.Time.Order

/-!
# Elapsed time

The time from one instant to another is counted in whole microseconds, or in
whole milliseconds where 64 bits do not hold the microseconds, and divided into
seconds. It is zero for less than a microsecond, and grows with the nanoseconds,
also from the one count to the other. Outside of leap seconds these are the
nanoseconds between the instants.
-/

namespace SeriesQuery

open Decimal (Size)

variable {start middle finish : Instant}

-- ---------------------------------------------------------------------------
-- Counts of microseconds
-- ---------------------------------------------------------------------------

theorem nanosBetween_eq (h : ¬ start.IsLeap) (h' : ¬ finish.IsLeap) :
    nanosBetween start finish = finish.nanos - start.nanos := by
  simp only [nanosBetween, h, h', false_and, if_false, Int.add_zero]

theorem nanosBetween_nonneg (h : ¬ start.IsLeap) (h' : ¬ finish.IsLeap) (hle : start ≤ finish) :
    0 ≤ nanosBetween start finish := by
  rw [nanosBetween_eq h h']
  exact Int.sub_nonneg.mpr (Instant.nanos_le hle h)

theorem nanosBetween_mono (hs : ¬ start.IsLeap) (hm : ¬ middle.IsLeap) (hf : ¬ finish.IsLeap)
    (hle : middle ≤ finish) : nanosBetween start middle ≤ nanosBetween start finish := by
  rw [nanosBetween_eq hs hm, nanosBetween_eq hs hf]
  exact Int.sub_le_sub_right (Instant.nanos_le hle hm) _

theorem natAbs_nanosBetween_lt (start finish : Instant) :
    (nanosBetween start finish).natAbs < 2 ^ 64 * 1000 := by
  have hfinish := And.intro finish.first_le finish.le_last
  have hstart := And.intro start.first_le start.le_last
  have hsubsecond := And.intro start.subsecond_lt finish.subsecond_lt
  simp only [Instant.firstSecond, Instant.lastSecond] at hfinish hstart
  simp only [nanosBetween, Instant.nanos]
  split_ifs <;> omega

theorem microsBetween_eq (h : 0 ≤ nanosBetween start finish) :
    microsBetween start finish = nanosBetween start finish / 1000 :=
  Int.tdiv_eq_ediv_of_nonneg h

theorem microsBetween_nonneg (h : 0 ≤ nanosBetween start finish) :
    0 ≤ microsBetween start finish := by
  rw [microsBetween_eq h]
  omega

theorem microsBetween_mono (h : 0 ≤ nanosBetween start middle)
    (h' : nanosBetween start middle ≤ nanosBetween start finish) :
    microsBetween start middle ≤ microsBetween start finish := by
  rw [microsBetween_eq h, microsBetween_eq (h.trans h')]
  omega

theorem microsBetween_eq_zero (h : 0 ≤ nanosBetween start finish) :
    microsBetween start finish = 0 ↔ nanosBetween start finish < 1000 := by
  rw [microsBetween_eq h]
  omega

-- ---------------------------------------------------------------------------
-- Seconds of a count
-- ---------------------------------------------------------------------------

theorem size_million : Size 1000000 (1000000 : ℕ) := .ofNat_exact (by decide)

theorem size_thousand : Size 1000 (1000 : ℕ) := .ofNat_exact (by decide)

theorem ofMicros_size {n : ℤ} (hnonneg : 0 ≤ n) (hn : n < 2 ^ 64) :
    ∃ v, Size (.ofInt n / 1000000) v ∧ (v = 0 ↔ n = 0) :=
  Size.part hnonneg hn size_million (by norm_num) (by norm_num)

theorem ofMillis_size {n : ℤ} (hnonneg : 0 ≤ n) (hn : n < 2 ^ 64) :
    ∃ v, Size (.ofInt n / 1000) v ∧ (v = 0 ↔ n = 0) :=
  Size.part hnonneg hn size_thousand (by norm_num) (by norm_num)

theorem ofMicros_mono {a b : ℤ} (ha : 0 ≤ a) (hle : a ≤ b) (hb : b < 2 ^ 64) :
    Float.ofInt a / 1000000 ≤ .ofInt b / 1000000 :=
  Size.part_mono ha hle hb size_million (by norm_num)

theorem ofMillis_mono {a b : ℤ} (ha : 0 ≤ a) (hle : a ≤ b) (hb : b < 2 ^ 64) :
    Float.ofInt a / 1000 ≤ .ofInt b / 1000 :=
  Size.part_mono ha hle hb size_thousand (by norm_num)

theorem micros_le_millis :
    Float.ofInt highestInteger / 1000000 ≤ Float.ofInt (highestInteger / 1000) / 1000 := by
  decide

theorem ofMicros_le_ofMillis {micros millis : ℤ} (hnonneg : 0 ≤ micros)
    (hfits : micros ≤ highestInteger) (hlong : highestInteger / 1000 ≤ millis)
    (hmillis : millis < 2 ^ 64) : Float.ofInt micros / 1000000 ≤ .ofInt millis / 1000 := by
  have hhighest : highestInteger < 2 ^ 64 := by decide
  have hshortest : 0 ≤ highestInteger / 1000 := by decide
  obtain ⟨_, hsize, -⟩ := ofMicros_size hnonneg (hfits.trans_lt hhighest)
  obtain ⟨_, hlongest, -⟩ := ofMicros_size (hnonneg.trans hfits) hhighest
  obtain ⟨_, hfirst, -⟩ := ofMillis_size hshortest (hlong.trans_lt hmillis)
  obtain ⟨_, hlast, -⟩ := ofMillis_size (hshortest.trans hlong) hmillis
  have hmicros := hsize.le_trans hlongest hfirst (ofMicros_mono hnonneg hfits hhighest)
    micros_le_millis
  exact hsize.le_trans hfirst hlast hmicros (ofMillis_mono hshortest hlong hmillis)

-- ---------------------------------------------------------------------------
-- Seconds between instants
-- ---------------------------------------------------------------------------

theorem secondsBetween_micros (h : 0 ≤ nanosBetween start finish)
    (hfits : nanosBetween start finish / 1000 ≤ highestInteger) :
    secondsBetween start finish = .ofInt (nanosBetween start finish / 1000) / 1000000 := by
  have hnonneg := microsBetween_nonneg h
  rw [microsBetween_eq h] at hnonneg
  rw [secondsBetween, microsBetween_eq h, if_pos ⟨by simp only [lowestInteger]; omega, hfits⟩]

theorem secondsBetween_millis (h : 0 ≤ nanosBetween start finish)
    (hlong : highestInteger < nanosBetween start finish / 1000) :
    secondsBetween start finish = .ofInt (nanosBetween start finish / 1000000) / 1000 := by
  rw [secondsBetween, microsBetween_eq h, if_neg (fun hfits => by omega)]
  rw [Int.tdiv_eq_ediv_of_nonneg h]

theorem secondsBetween_size (h : 0 ≤ nanosBetween start finish) :
    ∃ v, Size (secondsBetween start finish) v ∧ (v = 0 ↔ nanosBetween start finish < 1000) := by
  have hspan := natAbs_nanosBetween_lt start finish
  by_cases hfits : nanosBetween start finish / 1000 ≤ highestInteger
  · obtain ⟨v, hsize, hzero⟩ := ofMicros_size (n := nanosBetween start finish / 1000)
      (by omega) (by omega)
    exact ⟨v, secondsBetween_micros h hfits ▸ hsize, hzero.trans (by omega)⟩
  · obtain ⟨v, hsize, hzero⟩ := ofMillis_size (n := nanosBetween start finish / 1000000)
      (by omega) (by omega)
    rw [highestInteger] at hfits
    exact ⟨v, secondsBetween_millis h (by rw [highestInteger]; omega) ▸ hsize,
      hzero.trans (by omega)⟩

theorem secondsBetween_mono (h : 0 ≤ nanosBetween start middle)
    (h' : nanosBetween start middle ≤ nanosBetween start finish) :
    secondsBetween start middle ≤ secondsBetween start finish := by
  have hspan := natAbs_nanosBetween_lt start finish
  have hfinish := h.trans h'
  by_cases hfits : nanosBetween start finish / 1000 ≤ highestInteger
  · rw [secondsBetween_micros h (by omega), secondsBetween_micros hfinish hfits]
    exact ofMicros_mono (by omega) (by omega) (by omega)
  · rw [secondsBetween_millis hfinish (by omega)]
    by_cases hfits' : nanosBetween start middle / 1000 ≤ highestInteger
    · rw [secondsBetween_micros h hfits']
      exact ofMicros_le_ofMillis (by omega) hfits' (by omega) (by omega)
    · rw [secondsBetween_millis h (by omega)]
      exact ofMillis_mono (by omega) (by omega) (by omega)

/-- The part of a span that has elapsed is between none and all of it, unless
the span is shorter than a microsecond. -/
theorem secondsBetween_ratio (h : 0 ≤ nanosBetween start middle)
    (h' : nanosBetween start middle ≤ nanosBetween start finish)
    (hspan : 1000 ≤ nanosBetween start finish) :
    0 ≤ secondsBetween start middle / secondsBetween start finish ∧
      secondsBetween start middle / secondsBetween start finish ≤ 1 := by
  obtain ⟨v, hpart, -⟩ := secondsBetween_size h
  obtain ⟨w, hwhole, hzero⟩ := secondsBetween_size (h.trans h')
  have hpos : 0 < w := hwhole.nonneg.lt_of_ne' fun heq => by
    have := hzero.mp heq
    omega
  exact hpart.ratio hwhole hpos ((hpart.le_iff hwhole).mp (secondsBetween_mono h h'))

theorem secondsBetween_of_lt (h : 0 ≤ nanosBetween start finish)
    (hspan : nanosBetween start finish < 1000) :
    secondsBetween start finish = .ofInt 0 / 1000000 := by
  have hzero : nanosBetween start finish / 1000 = 0 := by omega
  rw [secondsBetween_micros h (by rw [hzero]; decide), hzero]

theorem secondsBetween_beq_zero_iff : (secondsBetween start finish == 0) = true ↔
    (nanosBetween start finish).natAbs < 1000 := by
  have hspan := natAbs_nanosBetween_lt start finish
  rw [secondsBetween, microsBetween]
  generalize nanosBetween start finish = span at hspan
  have hmicros : (span.tdiv 1000).natAbs = span.natAbs / 1000 := Int.natAbs_tdiv span 1000
  have hmillis : (span.tdiv 1000000).natAbs = span.natAbs / 1000000 := Int.natAbs_tdiv span 1000000
  split
  · rw [Decimal.ofInt_div_beq_zero_iff (by omega) (by omega) size_million (by norm_num)
      (by norm_num)]
    omega
  · next hlong =>
    have hlong : ¬ (span.natAbs / 1000 ≤ 9223372036854775807) := fun hfits => hlong (by
      simp only [FitsInteger, lowestInteger, highestInteger]
      omega)
    rw [Decimal.ofInt_div_beq_zero_iff (by omega) (by omega) size_thousand (by norm_num)
      (by norm_num)]
    omega

theorem secondsBetween_ratio_of_lt (h : 0 ≤ nanosBetween start middle)
    (h' : nanosBetween start middle ≤ nanosBetween start finish)
    (hspan : nanosBetween start finish < 1000) :
    (secondsBetween start middle / secondsBetween start finish).isNaN = true := by
  rw [secondsBetween_of_lt h (h'.trans_lt hspan), secondsBetween_of_lt (h.trans h') hspan]
  decide

end SeriesQuery
