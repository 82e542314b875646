import Mathlib.Order.Bounds.Defs
import SeriesQuery.Proofs.Time.Grid

/-!
# Buckets are a partition of time

What the local clock shows at the start of a bucket says which instants are
starts: multiples of the width for a fixed period, midnight of the first day of
a unit for a calendar period. The grid of a period answers the latest start that
is not after an instant, and behind a start the earliest one that follows it, as
long as there are such starts in the calendar. Buckets of a width that is not
whole seconds can fall out of order in a leap second, and with them this fails.
-/

namespace SeriesQuery

-- ---------------------------------------------------------------------------
-- Buckets of one width
-- ---------------------------------------------------------------------------

namespace FixedPeriod

/-- At an instant the local clock shows a whole multiple of the width. -/
def Starts (period : FixedPeriod) (b : Instant) : Prop :=
  b.subsecond % 1000000 = 0 ∧ period.localMillis b % period.millis.toInt = 0

/-- The whole numbers on the way to the start of a bucket. -/
def intermediates (period : FixedPeriod) (t : Instant) : List Int :=
  [t.millis, period.offset.seconds * 1000, period.localMillis t,
    period.localMillis t / period.millis.toInt, period.localStart t,
    period.localMillis t - period.localStart t]

variable {period : FixedPeriod} {t b : Instant}

theorem starts_iff : period.Starts b ↔ period.align b = some b := by
  have hdiv := Int.ediv_mul_add_emod (period.localMillis b) period.millis.toInt
  have hrest := Int.emod_nonneg (period.localMillis b) (Int.ne_of_gt period.millis_pos)
  rw [align_self_iff, floor_eq]
  simp only [Starts, localStart, Instant.nanos, Instant.millis]
  omega

theorem exists_align_of_starts (h : ∃ s, period.Starts s ∧ period.Resolves s ∧ s ≤ t) :
    ∃ b, period.align t = some b := by
  obtain ⟨s, hs, hresolves, hst⟩ := h
  have hfloor := floor_le_floor hresolves hst
  rw [align_self_iff.mp (starts_iff.mp hs)] at hfloor
  exact exists_align (Int.le_trans s.first_le_nanos hfloor)

theorem align_isGreatest (ht : period.Resolves t) (h : period.align t = some b) :
    IsGreatest {s | period.Starts s ∧ period.Resolves s ∧ s ≤ t} b := by
  refine ⟨⟨starts_iff.mpr (align_start h), fun hb => ht (isLeap_of_align h hb), align_le h⟩, ?_⟩
  rintro s ⟨hs, hresolves, hst⟩
  exact align_mono hresolves hst (starts_iff.mp hs) h

theorem width_or_double_le (x : Int) (hw : 0 < w) : -w ≤ x / w * w ∨ 2 * x ≤ x / w * w := by
  by_cases hx : -w ≤ x
  · have hquotient : -1 ≤ x / w := (Int.le_ediv_iff_mul_le hw).mpr (by omega)
    have hproduct := Int.mul_le_mul_of_nonneg_right hquotient (Int.le_of_lt hw)
    omega
  · have hlt := Int.lt_ediv_add_one_mul_self x hw
    rw [Int.add_mul] at hlt
    omega

theorem fits_rounding (hw : 0 < w) (hwidth : w ≤ highestInteger)
    (hlower : -9000000000000000 ≤ x) (hupper : x ≤ 9000000000000000) :
    FitsInteger (x / w) ∧ FitsInteger (x / w * w) ∧ FitsInteger (x - x / w * w) := by
  have hle := Int.ediv_mul_le x (Int.ne_of_gt hw)
  have hlt := Int.lt_ediv_add_one_mul_self x hw
  rw [Int.add_mul, Int.one_mul] at hlt
  have hbelow := width_or_double_le x hw
  have hquotient : -9000000000000000 ≤ x / w ∧ x / w < 9000000000000001 :=
    ⟨(Int.le_ediv_iff_mul_le hw).mpr (by omega), (Int.ediv_lt_iff_lt_mul hw).mpr (by omega)⟩
  simp only [FitsInteger, lowestInteger, highestInteger] at hwidth ⊢
  omega

theorem fits_intermediates (period : FixedPeriod) (t : Instant) :
    ∀ n ∈ period.intermediates t, FitsInteger n := by
  have hlower := period.offset.lower
  have hupper := period.offset.upper
  have hmillis : -8334601228800000 ≤ t.millis ∧ t.millis < 8210266876801000 := by
    have hfirst := t.first_le
    have hlast := t.le_last
    have hsubsecond := t.subsecond_lt
    simp only [Instant.firstSecond, Instant.lastSecond] at hfirst hlast
    simp only [Instant.millis]
    omega
  have hlocal : period.localMillis t = t.millis + period.offset.seconds * 1000 := rfl
  have hrounding := fits_rounding (x := period.localMillis t) period.millis_pos
    (fits_toInt period.millis).2 (by omega) (by omega)
  have hsum : FitsInteger t.millis ∧ FitsInteger (period.offset.seconds * 1000) ∧
      FitsInteger (period.localMillis t) := by
    simp only [FitsInteger, lowestInteger, highestInteger]
    omega
  simp only [intermediates, List.forall_mem_cons, List.not_mem_nil, localStart]
  exact ⟨hsum.1, hsum.2.1, hsum.2.2, hrounding.1, hrounding.2.1, hrounding.2.2, by simp⟩

theorem next_isLeast (hb : period.align b = some b) (hleap : ¬ b.IsLeap) (hleap' : ¬ c.IsLeap)
    (hc : c.nanos = b.nanos + period.millis.toInt * 1000000) :
    period.next b = some c ∧ IsLeast {s | period.Starts s ∧ ¬ s.IsLeap ∧ b < s} c := by
  have hnext := (next_eq_some hleap).mpr ⟨hleap', hc⟩
  refine ⟨hnext, ⟨starts_iff.mpr (align_next hb hc), hleap', lt_next hnext⟩, ?_⟩
  rintro s ⟨hs, hsLeap, hbs⟩
  have hle := add_width_le hb (starts_iff.mp hs) ((Instant.lt_iff_nanos hleap hsLeap).mp hbs)
  rw [← Std.not_lt, Instant.lt_iff_nanos hsLeap hleap']
  omega

/-- Buckets of one width round the local clock down, with all arithmetic on the
way in 64 bits: the grid answers the latest start that is not after an instant,
and the start that follows is the width later. In leap seconds this holds of whole
seconds; else only that the start is one, not after the instant and in its own
bucket. -/
theorem floors_exactly (period : FixedPeriod) (t : Instant) :
    (∀ n ∈ period.intermediates t, FitsInteger n) ∧
    ((∃ s, period.Starts s ∧ period.Resolves s ∧ s ≤ t) → ∃ b, period.align t = some b) ∧
    (period.Resolves t → ∀ b, period.align t = some b ↔
      IsGreatest {s | period.Starts s ∧ period.Resolves s ∧ s ≤ t} b) ∧
    ∀ b, period.align t = some b →
      period.Starts b ∧ b ≤ t ∧ period.align b = some b ∧
      (period.Resolves t → ∀ u c, t ≤ u → period.align u = some c → b ≤ c) ∧
      (∀ c, period.next b = some c → t < c) ∧
      ∀ c : Instant, ¬ b.IsLeap → ¬ c.IsLeap →
        c.nanos = b.nanos + period.millis.toInt * 1000000 →
        period.next b = some c ∧ IsLeast {s | period.Starts s ∧ ¬ s.IsLeap ∧ b < s} c := by
  refine ⟨fits_intermediates period t, exists_align_of_starts,
    fun ht b => ⟨align_isGreatest ht, fun hb => ?_⟩,
    fun b ha => ⟨starts_iff.mpr (align_start ha), align_le ha, align_start ha,
      fun ht u c htu hc => align_mono ht htu ha hc, fun c hc => lt_next_align ha hc,
      fun c hleap hleap' hc => next_isLeast (align_start ha) hleap hleap' hc⟩⟩
  obtain ⟨greatest, ha⟩ := exists_align_of_starts ⟨b, hb.1⟩
  have hgreatest := align_isGreatest ht ha
  rw [ha, Std.le_antisymm (hb.2 hgreatest.1) (hgreatest.2 hb.1)]

def halfPast : FixedPeriod := ⟨3600000, ⟨1800, by decide, by decide⟩, by decide⟩

theorem halfPast_floors :
    ∃ t b c : Instant, t.nanos = -1 ∧ b.nanos = -1800000000000 ∧ c.nanos = 1800000000000 ∧
      (∀ n ∈ halfPast.intermediates t, FitsInteger n) ∧
      halfPast.align t = some b ∧ halfPast.align b = some b ∧ halfPast.next b = some c ∧ t < c ∧
      IsGreatest {s | halfPast.Starts s ∧ halfPast.Resolves s ∧ s ≤ t} b ∧
      IsLeast {s | halfPast.Starts s ∧ ¬ s.IsLeap ∧ b < s} c := by
  let t : Instant := .ofNanos (-1)
  let b : Instant := .ofNanos (-1800000000000)
  let c : Instant := .ofNanos 1800000000000
  obtain ⟨hfits, -, hgreatest, hbucket⟩ := floors_exactly halfPast t
  have ha : halfPast.align t = some b := by decide
  obtain ⟨-, -, hidempotent, -, hlt, hnext⟩ := hbucket b ha
  obtain ⟨hnext, hleast⟩ := hnext c (by decide) (by decide) (by decide)
  exact ⟨t, b, c, by decide, by decide, by decide, hfits, ha, hidempotent, hnext, hlt c hnext,
    (hgreatest (fun _ => by decide) b).mp ha, hleast⟩

/-- A leap second and the second after it have the same milliseconds, so that of
two instants the later one can have the earlier bucket. -/
theorem leapSecond_floors_later :
    ∃ (period : FixedPeriod) (t u b c : Instant), period.millis = 700 ∧
      (t.seconds, t.subsecond) = (59, 1300000000) ∧ (u.seconds, u.subsecond) = (60, 100000000) ∧
      (b.seconds, b.subsecond) = (59, 1200000000) ∧ (c.seconds, c.subsecond) = (59, 500000000) ∧
      period.align t = some b ∧ period.align u = some c ∧ t < u ∧ c < b ∧ period.Starts b ∧
      b ≤ u := by
  refine ⟨⟨700, .utc, by decide⟩, ⟨59, 1300000000, by decide, by decide, by decide⟩,
    ⟨60, 100000000, by decide, by decide, by decide⟩,
    ⟨59, 1200000000, by decide, by decide, by decide⟩,
    ⟨59, 500000000, by decide, by decide, by decide⟩, rfl, rfl, rfl, rfl, rfl, ?_⟩
  exact ⟨by decide, by decide, by decide, by decide, ⟨by decide, by decide⟩, by decide⟩

end FixedPeriod

-- ---------------------------------------------------------------------------
-- Units of the calendar
-- ---------------------------------------------------------------------------

def CalendarUnit.StartsOn : CalendarUnit → Int → Prop
  | .day, _ => True
  | .week, d => Calendar.daysSinceMonday d = 0
  | .month, d => (Date.ofDay d).day = 1

instance (unit : CalendarUnit) (d : Int) : Decidable (unit.StartsOn d) :=
  match unit with
  | .day => inferInstanceAs (Decidable True)
  | .week => inferInstanceAs (Decidable (Calendar.daysSinceMonday d = 0))
  | .month => inferInstanceAs (Decidable ((Date.ofDay d).day = 1))

theorem CalendarUnit.startsOn_iff {unit : CalendarUnit} :
    unit.StartsOn d ↔ unit.firstDay (unit.numberOf d) = d := by
  cases unit with
  | day => simp [StartsOn, firstDay, numberOf]
  | week =>
    simp only [StartsOn, firstDay, numberOf, Calendar.daysSinceMonday]
    omega
  | month => exact Calendar.day_ofDay_eq_one_iff

namespace CalendarPeriod

/-- At an instant the local clock shows midnight of a day, and a unit starts on
the day. -/
def Starts (period : CalendarPeriod) (b : Instant) : Prop :=
  ∃ d, period.localDay? b = some d ∧
    b.seconds + period.offset.seconds = d * 86400 ∧ b.subsecond = 0 ∧ period.unit.StartsOn d

variable {period : CalendarPeriod} {t b c e : Instant}

theorem localDay?_eq_some : period.localDay? t = some d ↔
    d = period.localDay t.seconds ∧ firstDay ≤ d ∧ d ≤ lastDay := by
  rw [localDay?, day?_eq_some]
  constructor
  · rintro ⟨rfl, h⟩
    exact ⟨rfl, h⟩
  · rintro ⟨rfl, h⟩
    exact ⟨rfl, h⟩

theorem firstDay_of_start (h : period.bucketStart (period.bucketNumber second) = second) :
    period.unit.firstDay (period.bucketNumber second) = period.localDay second :=
  (numbering_days.index_start _).symm.trans (congrArg period.localDay h)

theorem starts_iff : period.Starts b ↔
    (firstDay ≤ period.localDay b.seconds ∧ period.localDay b.seconds ≤ lastDay) ∧
      period.bucketStart (period.bucketNumber b.seconds) = b.seconds ∧ b.subsecond = 0 := by
  constructor
  · rintro ⟨d, hd, hmidnight, hsubsecond, hunit⟩
    obtain ⟨rfl, hday⟩ := localDay?_eq_some.mp hd
    refine ⟨hday, ?_, hsubsecond⟩
    rw [bucketStart, bucketNumber, CalendarUnit.startsOn_iff.mp hunit, midnightSecond]
    omega
  · rintro ⟨hday, hstart, hsubsecond⟩
    have hfirst := firstDay_of_start hstart
    refine ⟨_, localDay?_eq_some.mpr ⟨rfl, hday⟩, ?_, hsubsecond,
      CalendarUnit.startsOn_iff.mpr hfirst⟩
    rw [bucketStart, hfirst, midnightSecond] at hstart
    omega

theorem align_starts (hday : period.localDay? t ≠ none) (hs : ∃ s, period.Starts s ∧ s ≤ t) :
    ∃ b, period.align t = some b ∧ period.Starts b := by
  obtain ⟨d, hd⟩ := Option.ne_none_iff_exists'.mp hday
  obtain ⟨rfl, hfirst, hlast⟩ := localDay?_eq_some.mp hd
  obtain ⟨s, hs, hst⟩ := hs
  obtain ⟨⟨hfirstS, -⟩, hstart, -⟩ := starts_iff.mp hs
  -- the unit starts on the day of that start or later, and not after the day of the instant
  have hnumbering : Numbering period.bucketStart period.bucketNumber := numbering
  have hnumber := hnumbering.index_mono (Instant.seconds_le hst)
  have hlower := period.unit.numbering.start_mono hnumber
  have hupper : period.unit.firstDay (period.bucketNumber t.seconds) ≤ period.localDay t.seconds :=
    period.unit.numbering.start_le _
  rw [firstDay_of_start hstart] at hlower
  obtain ⟨b, hb, hsubsecond, hseconds⟩ := midnight_eq_some period
    (period.unit.firstDay (period.bucketNumber t.seconds)) (by omega) (by omega)
  have hdayB := localDay_midnight hb (by omega) (by omega)
  have hstartOf : period.startOf (period.localDay t.seconds) =
      some (period.unit.firstDay (period.bucketNumber t.seconds)) :=
    startOf_eq_some.mpr ⟨rfl, fun _ => ⟨by omega, by omega⟩⟩
  refine ⟨b, align_eq_some.mpr ⟨_, ⟨hfirst, hlast⟩, hstartOf, hb⟩,
    starts_iff.mpr ⟨by omega, ?_, hsubsecond⟩⟩
  have hmidnight := hnumbering.start_mono hnumber
  have hfirstSecond := s.first_le
  rw [hstart] at hmidnight
  have hb' : b.seconds = period.bucketStart (period.bucketNumber t.seconds) := by
    rw [hseconds]
    exact Int.max_eq_right (Int.le_trans hfirstSecond hmidnight)
  rw [hb', numbering.index_start]

theorem align_of_starts (hb : period.Starts b) : period.align b = some b := by
  have hday : period.localDay? b ≠ none := by
    obtain ⟨d, hd, -⟩ := hb
    simp [hd]
  obtain ⟨c, hc, -⟩ := align_starts hday ⟨b, hb, Std.le_refl b⟩
  obtain ⟨-, hstart, hsubsecond⟩ := starts_iff.mp hb
  obtain ⟨hcSubsecond, hseconds⟩ := seconds_align hc
  have hfirst := b.first_le
  rw [hc, Instant.ext (a := c) (b := b) (by omega) (by omega)]

theorem align_isGreatest (ha : period.align t = some b) (hb : period.Starts b) :
    IsGreatest {s | period.Starts s ∧ s ≤ t} b :=
  ⟨⟨hb, align_le ha⟩, fun _ ⟨hs, hst⟩ => align_mono hst (align_of_starts hs) ha⟩

theorem next_isLeast (hb : period.Starts b) (he : ∃ e, period.Starts e ∧ b < e) :
    ∃ c, period.next b = some c ∧ IsLeast {s | period.Starts s ∧ b < s} c := by
  have hnumbering : Numbering period.bucketStart period.bucketNumber := numbering
  obtain ⟨-, hbStart, hbSubsecond⟩ := starts_iff.mp hb
  have hlater : ∀ s, period.Starts s → b < s →
      period.bucketNumber b.seconds < period.bucketNumber s.seconds := by
    intro s hs hbs
    obtain ⟨-, hstart, hsubsecond⟩ := starts_iff.mp hs
    simp only [Instant.lt_def, Instant.place] at hbs
    rw [← hnumbering.lt_start_iff, hstart]
    omega
  obtain ⟨e, he, hbe⟩ := he
  obtain ⟨c, hnext, hc, hseconds⟩ :=
    next_start (align_of_starts hb) (align_of_starts he) (hlater e he hbe)
  obtain ⟨d, hfirst, hlast, -, -, -, hday⟩ := align_spec hc
  have hsubsecond := (seconds_align hc).1
  have hlt := hnumbering.lt_start_succ b.seconds
  refine ⟨c, hnext, ⟨starts_iff.mpr ⟨by omega, by rw [hseconds, numbering.index_start],
    hsubsecond⟩, ?_⟩, ?_⟩
  · simp only [Instant.lt_def, Instant.place]
    omega
  · rintro s ⟨hs, hbs⟩
    have hle := hnumbering.start_mono (hlater s hs hbs)
    rw [(starts_iff.mp hs).2.1] at hle
    simp only [Instant.le_def, Instant.place]
    omega

theorem lt_of_isLeast (hb : IsGreatest {s | period.Starts s ∧ s ≤ t} b)
    (hc : IsLeast {s | period.Starts s ∧ b < s} c) : t < c := by
  obtain ⟨hstart, hbc⟩ := hc.1
  refine Std.not_le.mp fun hct => ?_
  exact Std.not_lt.mpr (hb.2 ⟨hstart, hct⟩) hbc

/-- Days, weeks and months cut time without gaps: as far as the dates around an
instant are in the calendar, the grid answers the latest start of a unit that is
not after the instant, and behind a start the earliest one that follows. -/
theorem units_partition (period : CalendarPeriod) {t : Instant}
    (hday : period.localDay? t ≠ none) (hs : ∃ s, period.Starts s ∧ s ≤ t) :
    ∃ b, period.align t = some b ∧ IsGreatest {s | period.Starts s ∧ s ≤ t} b ∧
      period.align b = some b ∧
      (∀ u c, t ≤ u → period.align u = some c → b ≤ c) ∧
      ((∃ e, period.Starts e ∧ b < e) → ∃ c, period.next b = some c ∧
        t < c ∧ IsLeast {s | period.Starts s ∧ b < s} c) := by
  obtain ⟨b, ha, hb⟩ := align_starts hday hs
  have hgreatest := align_isGreatest ha hb
  refine ⟨b, ha, hgreatest, align_start ha, fun u c htu hc => align_mono htu ha hc, fun he => ?_⟩
  obtain ⟨c, hnext, hleast⟩ := next_isLeast hb he
  exact ⟨c, hnext, lt_of_isLeast hgreatest hleast, hleast⟩

theorem leapMarch_partition :
    let period : CalendarPeriod := ⟨.month, ⟨3600, by decide, by decide⟩⟩
    ∃ t b c : Instant, t.nanos = 1709249400000000000 ∧ b.nanos = 1709247600000000000 ∧
      c.nanos = 1711926000000000000 ∧ period.align t = some b ∧ period.align b = some b ∧
      period.next b = some c ∧ t < c ∧ IsGreatest {s | period.Starts s ∧ s ≤ t} b ∧
      IsLeast {s | period.Starts s ∧ b < s} c := by
  intro period
  let t : Instant := .ofNanos 1709249400000000000
  let b : Instant := .ofNanos 1709247600000000000
  let c : Instant := .ofNanos 1711926000000000000
  have hb : period.Starts b := ⟨19783, by decide, by decide, by decide, by decide⟩
  have hc : period.Starts c := ⟨19814, by decide, by decide, by decide, by decide⟩
  have ha : period.align t = some b := by decide
  have hn : period.next b = some c := by decide
  obtain ⟨_, ha', hgreatest, hidempotent, -, hnext⟩ :=
    units_partition period (t := t) (by decide) ⟨b, hb, by decide⟩
  obtain rfl := Option.some.inj (ha.symm.trans ha')
  obtain ⟨_, hn', hlt, hleast⟩ := hnext ⟨c, hc, by decide⟩
  obtain rfl := Option.some.inj (hn.symm.trans hn')
  exact ⟨t, b, c, by decide, by decide, by decide, ha, hidempotent, hn, hlt, hgreatest, hleast⟩

end CalendarPeriod

end SeriesQuery
