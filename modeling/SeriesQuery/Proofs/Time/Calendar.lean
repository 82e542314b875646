import SeriesQuery.Proofs.Time.Numbering
import SeriesQuery.Time.Calendar

/-!
# The months of the civil calendar

The days are cut into years and, finer, into months, and both are numbered
without gaps: the year of a day is the one whose first day is the last on or
before it, and so is its month.
-/

namespace SeriesQuery.Calendar

-- ---------------------------------------------------------------------------
-- Years
-- ---------------------------------------------------------------------------

theorem yearStart_succ (year : Int) :
    yearStart (year + 1) = yearStart year + daysBefore (isLeapYear year) 13 := by
  have hlength : (daysBefore (isLeapYear year) 13 : Int) =
      if isLeapYear year = true then 366 else 365 := by
    cases isLeapYear year <;> decide
  rw [hlength]
  simp only [isLeapYear, yearStart, Bool.and_eq_true, Bool.or_eq_true, beq_iff_eq, bne_iff_ne]
  split <;> omega

theorem yearStart_mono (h : y ≤ z) : yearStart y ≤ yearStart z := by
  simp only [yearStart]
  omega

theorem yearOf_spec (day : Int) :
    yearStart (yearOf day) ≤ day ∧ day < yearStart (yearOf day + 1) := by
  have hguess : yearStart (day * 400 / 146097 + 1970 - 1) ≤ day ∧
      day < yearStart (day * 400 / 146097 + 1970 + 1 + 1) := by
    simp only [yearStart]
    omega
  simp only [yearOf]
  split
  · next hbefore => exact ⟨hguess.1, by rwa [Int.sub_add_cancel]⟩
  · next hstarted =>
    split
    · next hnext => exact ⟨hnext, hguess.2⟩
    · next hnot => exact ⟨Int.not_lt.mp hstarted, Int.not_le.mp hnot⟩

-- ---------------------------------------------------------------------------
-- Months of a year
-- ---------------------------------------------------------------------------

theorem monthLength_pos (leap : Bool) (month : Nat) : 0 < monthLength leap month := by
  unfold monthLength
  split
  · split <;> decide
  · split <;> decide

theorem daysBefore_succ (leap : Bool) (h : 1 ≤ month) :
    daysBefore leap (month + 1) = daysBefore leap month + monthLength leap month := by
  cases month with
  | zero => omega
  | succ month => rfl

theorem daysBefore_mono (leap : Bool) (h : m ≤ n) : daysBefore leap m ≤ daysBefore leap n := by
  induction h with
  | refl => exact Nat.le_refl _
  | @step n _ ih =>
    cases n with
    | zero => exact ih
    | succ n => exact Nat.le_trans ih (Nat.le_add_right _ _)

theorem monthOf_pos (leap : Bool) (day n : Nat) : 1 ≤ monthOf leap day n := by
  induction n with
  | zero => exact Nat.le_refl _
  | succ n ih =>
    rw [monthOf]
    split
    · exact Nat.succ_le_succ (Nat.zero_le _)
    · exact ih

theorem monthOf_le (leap : Bool) (day : Nat) (h : 1 ≤ n) : monthOf leap day n ≤ n := by
  induction n with
  | zero => omega
  | succ n ih =>
    rw [monthOf]
    split
    · exact Nat.le_refl _
    · cases n with
      | zero => exact Nat.le_refl _
      | succ n => exact Nat.le_succ_of_le (ih (Nat.succ_le_succ (Nat.zero_le n)))

theorem daysBefore_le_iff (leap : Bool) (day : Nat) (hm : 1 ≤ month) (hn : month ≤ n) :
    daysBefore leap month ≤ day ↔ month ≤ monthOf leap day n := by
  induction n with
  | zero => omega
  | succ n ih =>
    rw [monthOf]
    split
    · next hstarted =>
      exact iff_of_true (Nat.le_trans (daysBefore_mono leap hn) hstarted) hn
    · next hnot =>
      rcases Nat.lt_or_eq_of_le hn with hlt | rfl
      · exact ih (Nat.le_of_lt_succ hlt)
      · -- the month itself has not started, and those before it are earlier
        have hearlier : 1 ≤ n := Nat.pos_of_ne_zero fun hzero => hnot (hzero ▸ Nat.zero_le _)
        exact iff_of_false hnot (Nat.not_le.mpr (Nat.lt_succ_of_le (monthOf_le leap day hearlier)))

-- ---------------------------------------------------------------------------
-- All months
-- ---------------------------------------------------------------------------

def monthNumber (day : Int) : Int :=
  12 * (Date.ofDay day).year + ((Date.ofDay day).month - 1)

def monthAt (number : Int) : Int :=
  monthStart (number / 12) ((number % 12).toNat + 1)

theorem month_ofDay (day : Int) :
    1 ≤ (Date.ofDay day).month ∧ (Date.ofDay day).month ≤ 12 :=
  ⟨monthOf_pos _ _ _, monthOf_le _ _ (by decide)⟩

theorem monthAt_eq {month : Nat} (year : Int) (hm : 1 ≤ month) (hn : month ≤ 12) :
    monthAt (12 * year + ((month : Int) - 1)) = monthStart year month := by
  have hyear : (12 * year + ((month : Int) - 1)) / 12 = year := by omega
  have hmonth : ((12 * year + ((month : Int) - 1)) % 12).toNat + 1 = month := by omega
  rw [monthAt, hyear, hmonth]

theorem yearStart_le_monthAt (number : Int) : yearStart (number / 12) ≤ monthAt number :=
  Int.le_add_of_nonneg_right (Int.natCast_nonneg _)

theorem monthAt_lt_yearStart (number : Int) : monthAt number < yearStart (number / 12 + 1) := by
  have hmonth : (number % 12).toNat + 1 + 1 ≤ 13 := by omega
  have hle := daysBefore_mono (isLeapYear (number / 12)) hmonth
  rw [daysBefore_succ _ (Nat.le_add_left 1 (number % 12).toNat)] at hle
  have hpos := monthLength_pos (isLeapYear (number / 12)) ((number % 12).toNat + 1)
  rw [yearStart_succ, monthAt, monthStart]
  omega

theorem monthAt_le_iff : monthAt k ≤ day ↔ k ≤ monthNumber day := by
  obtain ⟨hstarted, hends⟩ := yearOf_spec day
  obtain ⟨hfirst, hlast⟩ := month_ofDay day
  have hyear : (Date.ofDay day).year = yearOf day := rfl
  rcases Int.lt_trichotomy (k / 12) (yearOf day) with hlt | heq | hgt
  · have hbefore := monthAt_lt_yearStart k
    have hle : yearStart (k / 12 + 1) ≤ yearStart (yearOf day) := yearStart_mono hlt
    have hnumber : k ≤ monthNumber day := by simp only [monthNumber]; omega
    exact iff_of_true (by omega) hnumber
  · -- within the year of the day its months decide
    have hmonth : (k % 12).toNat + 1 ≤ 12 := by omega
    have hiff := daysBefore_le_iff (isLeapYear (yearOf day)) (day - yearStart (yearOf day)).toNat
      (Nat.le_add_left 1 (k % 12).toNat) hmonth
    have hof : (Date.ofDay day).month = monthOf (isLeapYear (yearOf day))
      (day - yearStart (yearOf day)).toNat 12 := rfl
    rw [← hof] at hiff
    simp only [monthAt, monthStart, heq, monthNumber]
    omega
  · have hafter := yearStart_le_monthAt k
    have hle : yearStart (yearOf day + 1) ≤ yearStart (k / 12) := yearStart_mono hgt
    have hnumber : ¬ k ≤ monthNumber day := by simp only [monthNumber]; omega
    exact iff_of_false (by omega) hnumber

theorem monthAt_lt_succ (k : Int) : monthAt k < monthAt (k + 1) := by
  by_cases hdecember : k % 12 = 11
  · have hyear : (k + 1) / 12 = k / 12 + 1 := by omega
    have hbefore := monthAt_lt_yearStart k
    have hafter := yearStart_le_monthAt (k + 1)
    rw [hyear] at hafter
    omega
  · have hyear : (k + 1) / 12 = k / 12 := by omega
    have hmonth : ((k + 1) % 12).toNat = (k % 12).toNat + 1 := by omega
    have hpos := monthLength_pos (isLeapYear (k / 12)) ((k % 12).toNat + 1)
    simp only [monthAt, monthStart, hyear, hmonth,
      daysBefore_succ _ (Nat.le_add_left 1 (k % 12).toNat)]
    omega

theorem numbering_months : Numbering monthAt monthNumber :=
  ⟨monthAt_le_iff, monthAt_lt_succ⟩

theorem numbering_weeks : Numbering (fun k => k * 7 - 3) (fun day => (day + 3) / 7) :=
  .even 7 3 (by decide)

theorem monthAt_monthNumber (day : Int) :
    monthAt (monthNumber day) = monthStart (Date.ofDay day).year (Date.ofDay day).month :=
  monthAt_eq _ (month_ofDay day).1 (month_ofDay day).2

theorem monthAt_monthNumber_succ (day : Int) :
    monthAt (monthNumber day + 1) =
      if (Date.ofDay day).month = 12 then monthStart ((Date.ofDay day).year + 1) 1
      else monthStart (Date.ofDay day).year ((Date.ofDay day).month + 1) := by
  obtain ⟨hpos, hle⟩ := month_ofDay day
  split
  · next hdecember =>
    rw [← monthAt_eq _ (Nat.le_refl 1) (by decide), monthNumber, hdecember]
    congr 1
    omega
  · next hearlier =>
    rw [← monthAt_eq _ (Nat.le_add_left 1 _) (by omega), monthNumber]
    congr 1
    omega

-- ---------------------------------------------------------------------------
-- Dates
-- ---------------------------------------------------------------------------

theorem monthAt_add_day (day : Int) :
    monthAt (monthNumber day) + (Date.ofDay day).day = day + 1 := by
  obtain ⟨hstarted, -⟩ := yearOf_spec day
  obtain ⟨hfirst, hlast⟩ := month_ofDay day
  have hmonth := (daysBefore_le_iff (isLeapYear (yearOf day)) (day - yearStart (yearOf day)).toNat
    hfirst hlast).mpr (Nat.le_refl _)
  rw [monthAt_monthNumber, monthStart]
  simp only [Date.ofDay] at hmonth ⊢
  omega

theorem day_ofDay_eq_one_iff : (Date.ofDay day).day = 1 ↔ monthAt (monthNumber day) = day := by
  have hday := monthAt_add_day day
  omega

theorem year_month_ofDay (day : Int) : (Date.ofDay day).year = monthNumber day / 12 ∧
    ((Date.ofDay day).month : Int) = monthNumber day % 12 + 1 := by
  obtain ⟨hfirst, hlast⟩ := month_ofDay day
  simp only [monthNumber]
  omega

theorem monthAt_succ_monthNumber (day : Int) : monthAt (monthNumber day + 1) =
    monthAt (monthNumber day) +
      monthLength (isLeapYear (Date.ofDay day).year) (Date.ofDay day).month := by
  obtain ⟨hfirst, -⟩ := month_ofDay day
  have hlength := daysBefore_succ (isLeapYear (Date.ofDay day).year) hfirst
  rw [monthAt_monthNumber_succ, monthAt_monthNumber]
  split
  · next hdecember =>
    rw [hdecember] at hlength ⊢
    simp only [monthStart, yearStart_succ, hlength, daysBefore]
    omega
  · simp only [monthStart, hlength]
    omega

def tomorrow (date : Date) : Date :=
  if date.day < monthLength (isLeapYear date.year) date.month then
    ⟨date.year, date.month, date.day + 1⟩
  else if date.month < 12 then ⟨date.year, date.month + 1, 1⟩
  else ⟨date.year + 1, 1, 1⟩

theorem date_eq {date : Date} (hyear : date.year = year) (hmonth : date.month = month)
    (hday : date.day = day) : date = ⟨year, month, day⟩ := by
  cases date
  simp_all

/-- Day by day, the dates go on by the lengths of the months and the rule of leap
years. -/
theorem ofDay_succ (day : Int) : Date.ofDay (day + 1) = tomorrow (Date.ofDay day) := by
  have hday := monthAt_add_day day
  have hnext := monthAt_add_day (day + 1)
  have hlength := monthAt_succ_monthNumber day
  have hlast := numbering_months.lt_start_succ day
  obtain ⟨hyear, hmonth⟩ := year_month_ofDay day
  obtain ⟨hyear', hmonth'⟩ := year_month_ofDay (day + 1)
  rw [tomorrow]
  split
  · next hinside =>
    have hge : monthNumber day ≤ monthNumber (day + 1) := monthAt_le_iff.mp (by omega)
    have hlt := numbering_months.lt_start_iff.mp
      (show day + 1 < monthAt (monthNumber day + 1) by omega)
    have hsame : monthNumber (day + 1) = monthNumber day := by omega
    rw [hsame] at hnext hyear' hmonth'
    exact date_eq (by omega) (by omega) (by omega)
  · next hend =>
    have hstart : day + 1 = monthAt (monthNumber day + 1) := by omega
    have hsucc : monthNumber (day + 1) = monthNumber day + 1 := by
      rw [hstart, numbering_months.index_start]
    rw [hsucc] at hnext hyear' hmonth'
    split
    · next hearlier => exact date_eq (by omega) (by omega) (by omega)
    · next hdecember => exact date_eq (by omega) (by omega) (by omega)

/-- The dates are counted from the epoch. -/
example : Date.ofDay 0 = ⟨1970, 1, 1⟩ := by decide

end SeriesQuery.Calendar
