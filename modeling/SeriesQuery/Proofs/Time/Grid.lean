import SeriesQuery.Proofs.Outcome
import SeriesQuery.Proofs.Time.Calendar
import SeriesQuery.Proofs.Time.Order
import SeriesQuery.Time.PeriodSpec

/-!
# Grids of periods

The grid of a period cuts time into buckets. The start of a bucket is on or
before every instant in it and in the bucket itself, later instants are in the
same bucket or in later ones, and the boundary that follows a start is the next
start. All this holds up to the ends of the calendar, of whatever the grid
answers there. Where it comes to leap seconds it holds of whole seconds only, and
a leap second right before a start is a bucket of its own, with a start that no
boundary follows as the next one.
-/

namespace SeriesQuery

/-- A bucket starts at the instant, and not in a leap second. -/
structure Grid.StartsAt (grid : Grid) (t : Instant) : Prop where
  align_self : grid.align t = some t
  not_isLeap : ¬ t.IsLeap

structure Grid.Floors (grid : Grid) : Prop where
  start_le : ∀ {t b}, grid.align t = some b → b ≤ t
  align_start : ∀ {t b}, grid.align t = some b → grid.align b = some b

structure Grid.Lawful (grid : Grid) : Prop extends grid.Floors where
  mono : ∀ {t u b c}, t ≤ u → grid.align t = some b → grid.align u = some c → b ≤ c
  isLeap : ∀ {t b}, grid.align t = some b → b.IsLeap → t.IsLeap
  /-- Before a later start, a start is followed by a start. -/
  next_le : ∀ {b e}, grid.StartsAt b → grid.StartsAt e → b < e →
    ∃ c, grid.next b = some c ∧ grid.StartsAt c ∧ b < c ∧ c ≤ e
  next_lt : ∀ {s t c}, grid.align s = some s → s.IsLeap → grid.next t = some c → t < c

-- ---------------------------------------------------------------------------
-- Buckets of one width
-- ---------------------------------------------------------------------------

namespace FixedPeriod

def bucketStart (period : FixedPeriod) (number : Int) : Int :=
  (number * period.millis.toInt - period.offset.seconds * 1000) * 1000000

def bucketNumber (period : FixedPeriod) (nanos : Int) : Int :=
  (nanos / 1000000 + period.offset.seconds * 1000) / period.millis.toInt

def floor (period : FixedPeriod) (t : Instant) : Int :=
  period.bucketStart (period.bucketNumber t.nanos)

/-- Instants are told apart by whole milliseconds, and those of a leap second are
also those of the second after it. Where the width is whole seconds, both have the
same bucket or the second one starts a bucket. -/
def Resolves (period : FixedPeriod) (t : Instant) : Prop :=
  t.IsLeap → period.millis.toInt % 1000 = 0

variable {period : FixedPeriod} {t u b c e : Instant}

theorem numbering : Numbering period.bucketStart period.bucketNumber := by
  have hmillis := (Numbering.even 1000000 0 (by decide)).comp
    (.even period.millis.toInt (period.offset.seconds * 1000) period.millis_pos)
  simp only [Function.comp_def, Int.sub_zero, Int.add_zero] at hmillis
  exact hmillis

theorem floor_le (period : FixedPeriod) (t : Instant) : period.floor t ≤ t.nanos :=
  numbering.start_le _

theorem floor_of_eq (h : b.nanos = period.floor t) : period.floor b = b.nanos := by
  rw [floor, h, floor, numbering.index_start]

theorem floor_mono (h : t.nanos ≤ u.nanos) : period.floor t ≤ period.floor u :=
  numbering.start_mono (numbering.index_mono h)

theorem floor_eq (period : FixedPeriod) (t : Instant) : period.floor t =
    (t.millis - (period.localMillis t - period.localStart t)) * 1000000 := by
  simp only [floor, bucketStart, bucketNumber, localStart, localMillis, Instant.millis,
    Instant.nanos]
  have hmillis : (t.seconds * 1000000000 + t.subsecond) / 1000000 =
      t.seconds * 1000 + t.subsecond / 1000000 := by omega
  rw [hmillis]
  omega

/-- The grid goes back to the start of the bucket, which is in a leap second if
there is enough of one before the instant. -/
theorem align_eq_some : period.align t = some b ↔ b.nanos = period.floor t ∧
    (b.IsLeap ↔ t.IsLeap ∧ (t.seconds + 1) * 1000000000 ≤ period.floor t) := by
  have hrest : 0 ≤ period.localMillis t - period.localStart t :=
    Int.sub_nonneg.mpr (Int.ediv_mul_le _ (Int.ne_of_gt period.millis_pos))
  have hfloor := period.floor_eq t
  rw [align]
  generalize period.localMillis t - period.localStart t = rest at *
  have hback : -rest * 1000000 ≤ 0 := by omega
  have hback' : -((t.subsecond % 1000000 : Nat) : Int) ≤ 0 := by omega
  simp only [Option.bind_eq_bind, Option.bind_eq_some_iff, Instant.plus?_back hback']
  have ht := t.subsecond_lt
  have hb := b.subsecond_lt
  constructor
  · rintro ⟨whole, hwhole, hnanos, hleap⟩
    have hw := whole.subsecond_lt
    obtain ⟨hwhole, hwholeLeap⟩ := (Instant.plus?_back hback).mp hwhole
    simp only [Instant.nanos, Instant.millis, Instant.IsLeap] at *
    omega
  · rintro ⟨hnanos, hleap⟩
    have hfirst := b.first_le_nanos
    obtain ⟨whole, hwhole⟩ := Instant.exists_plus?_back (t := t) hback (by
      simp only [Instant.nanos, Instant.millis] at *
      omega)
    have hw := whole.subsecond_lt
    refine ⟨whole, hwhole, ?_⟩
    obtain ⟨hwhole, hwholeLeap⟩ := (Instant.plus?_back hback).mp hwhole
    simp only [Instant.nanos, Instant.millis, Instant.IsLeap] at *
    omega

theorem exists_align (h : Instant.firstNanos ≤ period.floor t) :
    ∃ b, period.align t = some b := by
  have hle := period.floor_le t
  have ht := t.subsecond_lt
  have hlast := t.le_last
  by_cases hleap : t.IsLeap ∧ (t.seconds + 1) * 1000000000 ≤ period.floor t
  · simp only [Instant.IsLeap, Instant.nanos] at hleap hle
    refine ⟨⟨t.seconds, (period.floor t - t.seconds * 1000000000).toNat, t.first_le, t.le_last,
      .inr (by omega)⟩, align_eq_some.mpr ⟨?_, iff_of_true ?_ hleap⟩⟩
    · simp only [Instant.nanos]
      omega
    · simp only [Instant.IsLeap]
      omega
  · obtain ⟨b, hb, hnanos⟩ := Instant.exists_nanos _ h (by
      simp only [Instant.lastNanos, Instant.lastSecond, Instant.IsLeap, Instant.nanos] at *
      omega)
    exact ⟨b, align_eq_some.mpr ⟨hnanos, iff_of_false hb hleap⟩⟩

theorem align_le (h : period.align t = some b) : b ≤ t := by
  obtain ⟨hnanos, hleap⟩ := align_eq_some.mp h
  have hle := period.floor_le t
  have ht := t.subsecond_lt
  have hb := b.subsecond_lt
  simp only [Instant.le_def, Instant.place, Instant.nanos, Instant.IsLeap] at *
  omega

theorem align_self_iff : period.align b = some b ↔ period.floor b = b.nanos := by
  rw [align_eq_some, eq_comm (a := b.nanos), and_iff_left_iff_imp]
  intro hfloor
  simp only [Instant.nanos, Instant.IsLeap] at *
  omega

theorem align_start (h : period.align t = some b) : period.align b = some b :=
  align_self_iff.mpr (floor_of_eq (align_eq_some.mp h).1)

theorem isLeap_of_align (h : period.align t = some b) (hb : b.IsLeap) : t.IsLeap :=
  ((align_eq_some.mp h).2.mp hb).1

theorem bucketNumber_seconds (hwidth : period.millis.toInt % 1000 = 0) (nanos : Int) :
    period.bucketNumber nanos =
      (nanos / 1000000000 + period.offset.seconds) / (period.millis.toInt / 1000) := by
  have hmillis : (nanos / 1000000 + period.offset.seconds * 1000) / 1000 =
      nanos / 1000000000 + period.offset.seconds := by omega
  rw [bucketNumber, ← hmillis, Int.ediv_ediv_of_nonneg (by decide),
    Int.mul_ediv_cancel' (Int.dvd_of_emod_eq_zero hwidth)]

theorem floor_le_floor (ht : period.Resolves t) (h : t ≤ u) : period.floor t ≤ period.floor u := by
  by_cases hnanos : t.nanos ≤ u.nanos
  · exact floor_mono hnanos
  · -- a leap second and the second after it, with the same number of seconds
    have hleap : t.IsLeap := Decidable.by_contra fun hleap => hnanos (Instant.nanos_le h hleap)
    have hseconds : t.nanos / 1000000000 = u.nanos / 1000000000 := by
      have hlt := t.subsecond_lt
      simp only [Instant.le_def, Instant.place, Instant.nanos, Instant.IsLeap] at *
      omega
    refine Int.le_of_eq ?_
    rw [floor, floor, bucketNumber_seconds (ht hleap), bucketNumber_seconds (ht hleap), hseconds]

theorem align_mono (ht : period.Resolves t) (h : t ≤ u) (hb : period.align t = some b)
    (hc : period.align u = some c) : b ≤ c := by
  obtain ⟨hb, hbLeap⟩ := align_eq_some.mp hb
  obtain ⟨hc, hcLeap⟩ := align_eq_some.mp hc
  have hfloor := floor_le_floor ht h
  have hle := period.floor_le t
  have hle' := period.floor_le u
  have ht := t.subsecond_lt
  have hu := u.subsecond_lt
  have hbSubsecond := b.subsecond_lt
  have hcSubsecond := c.subsecond_lt
  simp only [Instant.le_def, Instant.place, Instant.nanos, Instant.IsLeap] at *
  omega

theorem lt_next (h : period.next t = some c) : t < c :=
  Instant.lt_of_plus? (Int.mul_pos period.millis_pos (by decide)) h

theorem bucketStart_succ (number : Int) :
    period.bucketStart (number + 1) =
      period.bucketStart number + period.millis.toInt * 1000000 := by
  simp only [bucketStart]
  grind

theorem lt_next_align (hb : period.align t = some b) (hc : period.next b = some c) : t < c := by
  obtain ⟨hnanos, hleap⟩ := align_eq_some.mp hb
  have hlt : t.nanos < period.floor t + period.millis.toInt * 1000000 := by
    rw [floor, ← bucketStart_succ]
    exact numbering.lt_start_succ t.nanos
  have ht := t.subsecond_lt
  have hbSubsecond := b.subsecond_lt
  have hcSubsecond := c.subsecond_lt
  simp only [next, Instant.plus?] at hc
  split_ifs at hc <;>
    simp only [Instant.at?_eq_some, Instant.ofNanos?_eq_some, Instant.IsLeap, Instant.nanos,
      Instant.lt_def, Instant.place] at * <;> omega

theorem next_eq_some (hb : ¬ b.IsLeap) : period.next b = some c ↔
    ¬ c.IsLeap ∧ c.nanos = b.nanos + period.millis.toInt * 1000000 :=
  Instant.plus?_eq_some hb

theorem align_next (hb : period.align b = some b)
    (hc : c.nanos = b.nanos + period.millis.toInt * 1000000) : period.align c = some c := by
  rw [align_self_iff] at hb ⊢
  rw [floor, hc, ← hb, floor, ← bucketStart_succ, numbering.index_start]

theorem add_width_le (hb : period.align b = some b) (he : period.align e = some e)
    (hlt : b.nanos < e.nanos) : b.nanos + period.millis.toInt * 1000000 ≤ e.nanos := by
  rw [align_self_iff, floor] at hb he
  have hnumbering : Numbering period.bucketStart period.bucketNumber := numbering
  have hindex : period.bucketNumber b.nanos < period.bucketNumber e.nanos := by
    rw [← hnumbering.lt_start_iff, he]
    exact hlt
  calc b.nanos + period.millis.toInt * 1000000
    _ = period.bucketStart (period.bucketNumber b.nanos + 1) := by rw [bucketStart_succ, hb]
    _ ≤ period.bucketStart (period.bucketNumber e.nanos) := hnumbering.start_mono hindex
    _ = e.nanos := he

theorem floors : (Period.fixed period).grid.Floors := ⟨align_le, align_start⟩

theorem lawful (hwidth : period.millis.toInt % 1000 = 0) : (Period.fixed period).grid.Lawful where
  toFloors := floors
  mono htu hb hc := align_mono (fun _ => hwidth) htu hb hc
  isLeap := isLeap_of_align
  next_le {b e} := by
    rintro ⟨hb, hbLeap⟩ ⟨he, heLeap⟩ hbe
    have hlt := (Instant.lt_iff_nanos hbLeap heLeap).mp hbe
    have hle := add_width_le hb he hlt
    have hfirst := b.first_le_nanos
    have hlast := Instant.nanos_le_last heLeap
    have hwidth := Int.mul_pos period.millis_pos (b := 1000000) (by decide)
    obtain ⟨c, hcLeap, hc⟩ := Instant.exists_nanos (b.nanos + period.millis.toInt * 1000000)
      (by omega) (by omega)
    refine ⟨c, (next_eq_some hbLeap).mpr ⟨hcLeap, hc⟩, ⟨align_next hb hc, hcLeap⟩,
      (Instant.lt_iff_nanos hbLeap hcLeap).mpr (by omega), ?_⟩
    rw [← Std.not_lt, Instant.lt_iff_nanos heLeap hcLeap]
    omega
  next_lt _ _ hc := lt_next hc

end FixedPeriod

-- ---------------------------------------------------------------------------
-- Units of the calendar
-- ---------------------------------------------------------------------------

namespace CalendarUnit

def firstDay : CalendarUnit → Int → Int
  | .day => id
  | .week => fun k => k * 7 - 3
  | .month => Calendar.monthAt

def numberOf : CalendarUnit → Int → Int
  | .day => id
  | .week => fun day => (day + 3) / 7
  | .month => Calendar.monthNumber

theorem numbering (unit : CalendarUnit) : Numbering unit.firstDay unit.numberOf := by
  cases unit with
  | day => exact .points
  | week => exact Calendar.numbering_weeks
  | month => exact Calendar.numbering_months

end CalendarUnit

namespace CalendarPeriod

def midnightSecond (period : CalendarPeriod) (day : Int) : Int :=
  day * 86400 - period.offset.seconds

def localDay (period : CalendarPeriod) (second : Int) : Int :=
  (second + period.offset.seconds) / 86400

def bucketStart (period : CalendarPeriod) (number : Int) : Int :=
  period.midnightSecond (period.unit.firstDay number)

def bucketNumber (period : CalendarPeriod) (second : Int) : Int :=
  period.unit.numberOf (period.localDay second)

variable {period : CalendarPeriod} {t u b c e : Instant}

theorem numbering_days : Numbering period.midnightSecond period.localDay :=
  .even 86400 period.offset.seconds (by decide)

theorem numbering : Numbering period.bucketStart period.bucketNumber :=
  numbering_days.comp period.unit.numbering

theorem day?_eq_some : day? day = some d ↔ d = day ∧ firstDay ≤ day ∧ day ≤ lastDay := by
  unfold day?
  split
  · next h => simp [h, eq_comm]
  · next h => simp [h]

theorem midnight_eq_some (period : CalendarPeriod) (day : Int) (hfirst : firstDay ≤ day)
    (hlast : day ≤ lastDay) :
    ∃ b, period.midnight day = some b ∧ b.subsecond = 0 ∧
      b.seconds = max Instant.firstSecond (period.midnightSecond day) := by
  have hlower := period.offset.lower
  have hupper := period.offset.upper
  have hfirstDay : firstDay * 86400 = Instant.firstSecond := by decide
  have hlastDay : lastDay * 86400 + 86399 = Instant.lastSecond := by decide
  simp only [midnight, midnightSecond]
  by_cases hinside : Instant.firstSecond ≤ day * 86400 - period.offset.seconds
  · obtain ⟨b, hb, hseconds, hsubsecond⟩ := Instant.exists_at? _ hinside (by omega)
    exact ⟨b, by rw [hb]; rfl, hsubsecond, by omega⟩
  · have hnone : Instant.at? (day * 86400 - period.offset.seconds) 0 = none :=
      dif_neg fun h => hinside h.1.1
    obtain ⟨b, hb, hseconds, hsubsecond⟩ := Instant.exists_at? (day * 86400)
      (by omega) (by omega)
    exact ⟨b, by rw [hnone, hb]; rfl, hsubsecond, by omega⟩

theorem startOf_eq_some : period.startOf day = some d ↔
    d = period.unit.firstDay (period.unit.numberOf day) ∧
      (period.unit = .week → firstDay ≤ d ∧ d ≤ lastDay) := by
  unfold startOf
  cases period.unit with
  | day => simp [CalendarUnit.firstDay, CalendarUnit.numberOf, eq_comm]
  | week =>
    have hmonday : day - Calendar.daysSinceMonday day = (day + 3) / 7 * 7 - 3 := by
      simp only [Calendar.daysSinceMonday]
      omega
    simp only [hmonday, day?_eq_some, CalendarUnit.firstDay, CalendarUnit.numberOf, true_imp_iff]
    constructor
    · rintro ⟨rfl, h⟩
      exact ⟨rfl, h⟩
    · rintro ⟨rfl, h⟩
      exact ⟨rfl, h⟩
  | month =>
    simp [CalendarUnit.firstDay, CalendarUnit.numberOf, Calendar.monthAt_monthNumber, eq_comm]

theorem startOf_of_mem (h : period.startOf day = some d) (hfirst : firstDay ≤ day)
    (hlast : day ≤ lastDay) : firstDay ≤ d ∧ d ≤ lastDay := by
  obtain ⟨rfl, hweek⟩ := startOf_eq_some.mp h
  have hle := period.unit.numbering.start_le day
  refine ⟨?_, Int.le_trans hle hlast⟩
  -- days and months start with the calendar
  cases hunit : period.unit with
  | day => exact hfirst
  | week => exact hunit ▸ (hweek hunit).1
  | month =>
    have hmonth : Calendar.monthAt (Calendar.monthNumber firstDay) = firstDay := by decide
    have hmono := Calendar.numbering_months.start_mono
      (Calendar.numbering_months.index_mono hfirst)
    rwa [hmonth] at hmono

theorem align_eq_some : period.align t = some b ↔
    ∃ d, (firstDay ≤ period.localDay t.seconds ∧ period.localDay t.seconds ≤ lastDay) ∧
      period.startOf (period.localDay t.seconds) = some d ∧ period.midnight d = some b := by
  simp only [align, localDay?, localDay, Option.bind_eq_bind, Option.bind_eq_some_iff, day?_eq_some]
  constructor
  · rintro ⟨_, ⟨rfl, hday⟩, d, hstart, hmidnight⟩
    exact ⟨d, hday, hstart, hmidnight⟩
  · rintro ⟨d, hday, hstart, hmidnight⟩
    exact ⟨_, ⟨rfl, hday⟩, d, hstart, hmidnight⟩

theorem localDay_midnight (h : period.midnight day = some b) (hfirst : firstDay ≤ day)
    (hlast : day ≤ lastDay) : period.localDay b.seconds = day := by
  obtain ⟨b', hb', -, hseconds⟩ := midnight_eq_some period day hfirst hlast
  obtain rfl := Option.some.inj (h.symm.trans hb')
  have hlower := period.offset.lower
  have hupper := period.offset.upper
  have hfirstDay : firstDay * 86400 = Instant.firstSecond := by decide
  simp only [localDay, hseconds, midnightSecond]
  omega

theorem startOf_start (h : period.startOf day = some d) : period.startOf d = some d := by
  obtain ⟨rfl, hweek⟩ := startOf_eq_some.mp h
  exact startOf_eq_some.mpr ⟨by rw [period.unit.numbering.index_start], hweek⟩

theorem align_spec (h : period.align t = some b) :
    ∃ d, firstDay ≤ d ∧ d ≤ lastDay ∧ period.startOf d = some d ∧ period.midnight d = some b ∧
      d = period.unit.firstDay (period.bucketNumber t.seconds) ∧
      period.localDay b.seconds = d := by
  obtain ⟨d, ⟨hfirst, hlast⟩, hstart, hmidnight⟩ := align_eq_some.mp h
  obtain ⟨hfirst', hlast'⟩ := startOf_of_mem hstart hfirst hlast
  exact ⟨d, hfirst', hlast', startOf_start hstart, hmidnight, (startOf_eq_some.mp hstart).1,
    localDay_midnight hmidnight hfirst' hlast'⟩

theorem seconds_align (h : period.align t = some b) : b.subsecond = 0 ∧
    b.seconds = max Instant.firstSecond (period.bucketStart (period.bucketNumber t.seconds)) := by
  obtain ⟨d, hfirst, hlast, -, hmidnight, rfl, -⟩ := align_spec h
  obtain ⟨b', hb', hspec⟩ := midnight_eq_some period _ hfirst hlast
  obtain rfl := Option.some.inj (hmidnight.symm.trans hb')
  exact hspec

theorem align_le (h : period.align t = some b) : b ≤ t := by
  obtain ⟨hsubsecond, hseconds⟩ := seconds_align h
  have hstart : period.bucketStart (period.bucketNumber t.seconds) ≤ t.seconds :=
    numbering.start_le _
  have hfirst := t.first_le
  simp only [Instant.le_def, Instant.place]
  omega

theorem align_mono (h : t ≤ u) (hb : period.align t = some b) (hc : period.align u = some c) :
    b ≤ c := by
  obtain ⟨hbSubsecond, hb⟩ := seconds_align hb
  obtain ⟨hcSubsecond, hc⟩ := seconds_align hc
  have hnumbering : Numbering period.bucketStart period.bucketNumber := numbering
  have hstart := hnumbering.start_mono (hnumbering.index_mono (Instant.seconds_le h))
  simp only [Instant.le_def, Instant.place]
  omega

theorem align_start (h : period.align t = some b) : period.align b = some b := by
  obtain ⟨d, hfirst, hlast, hstart, hmidnight, -, rfl⟩ := align_spec h
  exact align_eq_some.mpr ⟨_, ⟨hfirst, hlast⟩, hstart, hmidnight⟩

theorem not_isLeap (h : period.align t = some b) : ¬ b.IsLeap := by
  have hsubsecond := (seconds_align h).1
  simp only [Instant.IsLeap]
  omega

theorem startAfter_eq (hs : period.startOf s = some s)
    (hfirst : firstDay ≤ period.unit.firstDay (period.unit.numberOf s + 1))
    (hlast : period.unit.firstDay (period.unit.numberOf s + 1) ≤ lastDay) :
    period.startAfter s = some (period.unit.firstDay (period.unit.numberOf s + 1)) := by
  have hstart := (startOf_eq_some.mp hs).1
  unfold startAfter
  cases hunit : period.unit with
  | day =>
    rw [hunit] at hfirst hlast
    simp only [CalendarUnit.firstDay, CalendarUnit.numberOf, id_eq] at hfirst hlast ⊢
    rw [day?_eq_some.mpr ⟨rfl, hfirst, hlast⟩]
    rfl
  | week =>
    rw [hunit] at hfirst hlast hstart
    simp only [CalendarUnit.firstDay, CalendarUnit.numberOf] at hfirst hlast hstart ⊢
    exact day?_eq_some.mpr ⟨by omega, by omega, by omega⟩
  | month =>
    rw [hunit] at hfirst hlast
    simp only [CalendarUnit.firstDay, CalendarUnit.numberOf] at hfirst hlast ⊢
    rw [← Calendar.monthAt_monthNumber_succ, day?_eq_some.mpr ⟨rfl, hfirst, hlast⟩]
    rfl

theorem next_start (hb : period.align b = some b) (he : period.align e = some e)
    (hbe : period.bucketNumber b.seconds < period.bucketNumber e.seconds) :
    ∃ c, period.next b = some c ∧ period.align c = some c ∧
      c.seconds = period.bucketStart (period.bucketNumber b.seconds + 1) := by
  obtain ⟨d, hfirst, hlast, hstart, -, -, hday⟩ := align_spec hb
  obtain ⟨d', -, hlastE, -, -, hd', -⟩ := align_spec he
  -- the next unit starts behind this one, and not behind that of the later instant
  have hafter := period.unit.numbering.lt_start_succ d
  have hbefore : period.unit.firstDay (period.unit.numberOf d + 1) ≤ d' := by
    rw [hd']
    refine period.unit.numbering.start_mono ?_
    rwa [bucketNumber, hday] at hbe
  obtain ⟨c, hc, -, hseconds⟩ := midnight_eq_some period
    (period.unit.firstDay (period.unit.numberOf d + 1)) (by omega) (by omega)
  have hdayC := localDay_midnight hc (by omega) (by omega)
  have hupper := period.offset.upper
  have hfirstDay : firstDay * 86400 = Instant.firstSecond := by decide
  refine ⟨c, ?_, ?_, ?_⟩
  · have hlocal : period.localDay? b = some d := by
      refine day?_eq_some.mpr ⟨hday.symm, ?_⟩
      show firstDay ≤ period.localDay b.seconds ∧ period.localDay b.seconds ≤ lastDay
      exact hday.symm ▸ ⟨hfirst, hlast⟩
    simp only [next, Option.bind_eq_bind, hlocal, hstart, Option.bind_some,
      startAfter_eq hstart (by omega) (by omega), hc]
  · refine align_eq_some.mpr ⟨_, ?_, ?_, hc⟩
    · rw [hdayC]
      omega
    · rw [hdayC]
      refine startOf_eq_some.mpr ⟨by rw [period.unit.numbering.index_start], fun _ => ?_⟩
      omega
  · rw [hseconds, bucketNumber, bucketStart, hday]
    simp only [midnightSecond]
    omega

theorem floors : (Period.calendar period).grid.Floors := ⟨align_le, align_start⟩

theorem lawful : (Period.calendar period).grid.Lawful where
  toFloors := floors
  mono := align_mono
  isLeap hb hleap := absurd hleap (not_isLeap hb)
  next_le {b e} := by
    rintro ⟨hb, -⟩ ⟨he, -⟩ hbe
    have hindex : period.bucketNumber b.seconds < period.bucketNumber e.seconds := by
      refine Int.not_le.mp fun hle => Std.not_lt.mpr ?_ hbe
      have hnumbering : Numbering period.bucketStart period.bucketNumber := numbering
      have hstart := hnumbering.start_mono hle
      obtain ⟨hbSubsecond, hbSeconds⟩ := seconds_align hb
      obtain ⟨heSubsecond, heSeconds⟩ := seconds_align he
      simp only [Instant.le_def, Instant.place]
      omega
    obtain ⟨c, hnext, hstart, hseconds⟩ := next_start hb he hindex
    have hsubsecond := (seconds_align hstart).1
    have hnumbering : Numbering period.bucketStart period.bucketNumber := numbering
    have hlt := hnumbering.lt_start_succ b.seconds
    have hle := hnumbering.start_le_iff.mpr hindex
    have hbSubsecond := (seconds_align hb).1
    refine ⟨c, hnext, ⟨hstart, not_isLeap hstart⟩, ?_, ?_⟩
    · simp only [Instant.lt_def, Instant.place]
      omega
    · simp only [Instant.le_def, Instant.place]
      omega
  next_lt hs hleap _ := absurd hleap (not_isLeap hs)

end CalendarPeriod

theorem Period.floors : (period : Period) → period.grid.Floors
  | .fixed _ => FixedPeriod.floors
  | .calendar _ => CalendarPeriod.floors

theorem PeriodSpec.width_eq_ok (h : width seconds = .ok millis) : millis.toInt % 1000 = 0 := by
  unfold width at h
  split at h
  · next hfits =>
    cases h
    rw [toInt_of_integer? hfits]
    omega
  · cases h

theorem FixedPeriod.build_eq_ok {millis : Int64} {offset : UtcOffset}
    (h : build millis offset = .ok period) : period.millis = millis := by
  simp only [build, ofMillis?] at h
  split at h
  · next hbuilt =>
    cases h
    split at hbuilt <;> cases hbuilt
    rfl
  · cases h

/-- The grid of every period that a description builds is lawful. -/
theorem PeriodSpec.lawful {spec : PeriodSpec} {period : Period} (h : spec.build = .ok period) :
    period.grid.Lawful := by
  cases spec with
  | fixed seconds offset =>
    simp only [build, bind_eq_ok, pure_eq_ok] at h
    obtain ⟨millis, hmillis, utcOffset, -, fixed, hfixed, rfl⟩ := h
    exact FixedPeriod.lawful (FixedPeriod.build_eq_ok hfixed ▸ width_eq_ok hmillis)
  | calendar unit offset =>
    simp only [build, bind_eq_ok, pure_eq_ok] at h
    obtain ⟨utcOffset, -, rfl⟩ := h
    exact CalendarPeriod.lawful

end SeriesQuery
