import SeriesQuery.Text.Integer
import SeriesQuery.Time.Calendar
import SeriesQuery.Time.Instant

/-!
# Alignment periods

A grid maps any instant to the start of its bucket, and a bucket start to the boundary that
follows it. Two kinds of period are grids: buckets of a fixed width, and days, weeks and months
of the civil calendar, both at a fixed offset from UTC. An answer that leaves the calendar is
missing.
-/

namespace SeriesQuery

open SeriesQuery.Text (writePadded writeInteger)

/-- What the stages of a query know of a period. Nothing is promised of the two functions. -/
structure Grid where
  align : Instant → Option Instant
  next : Instant → Option Instant
  name : String

/-- Seconds east of UTC, less than a day. -/
structure UtcOffset where
  seconds : Int
  lower : -86400 < seconds
  upper : seconds < 86400
deriving DecidableEq

namespace UtcOffset

def utc : UtcOffset := ⟨0, by decide, by decide⟩

def ofSeconds? (seconds : Int) : Option UtcOffset :=
  if h : -86400 < seconds ∧ seconds < 86400 then some ⟨seconds, h.1, h.2⟩ else none

def text (offset : UtcOffset) : String :=
  let size := offset.seconds.natAbs
  let sign := if offset.seconds < 0 then '-' else '+'
  let minutes := sign :: writePadded 2 (size / 3600) ++ ':' :: writePadded 2 (size / 60 % 60)
  String.ofList <|
    if size % 60 = 0 then minutes else minutes ++ ':' :: writePadded 2 (size % 60)

end UtcOffset

/-- Buckets of a whole number of milliseconds, counted from the epoch of the local clock. -/
structure FixedPeriod where
  millis : Int64
  offset : UtcOffset
  millis_pos : 0 < millis.toInt
deriving DecidableEq

namespace FixedPeriod

def ofMillis? (millis : Int64) (offset : UtcOffset) : Option FixedPeriod :=
  if h : 0 < millis.toInt then some ⟨millis, offset, h⟩ else none

def localMillis (period : FixedPeriod) (t : Instant) : Int :=
  t.millis + period.offset.seconds * 1000

def localStart (period : FixedPeriod) (t : Instant) : Int :=
  period.localMillis t / period.millis.toInt * period.millis.toInt

/-- Rounds the local clock down to a multiple of the width: first by whole milliseconds, then by
what is left of the last one. -/
def align (period : FixedPeriod) (t : Instant) : Option Instant := do
  let whole ← t.plus? (-(period.localMillis t - period.localStart t) * 1000000)
  whole.plus? (-(t.subsecond % 1000000 : Nat))

def next (period : FixedPeriod) (boundary : Instant) : Option Instant :=
  boundary.plus? (period.millis.toInt * 1000000)

def name (period : FixedPeriod) : String :=
  "FixedPeriod \x7b width_ms: " ++ String.ofList (writeInteger period.millis.toInt) ++
    ", offset: " ++ period.offset.text ++ " \x7d"

end FixedPeriod

inductive CalendarUnit where
  | day
  | week
  | month
deriving DecidableEq, Repr

def CalendarUnit.name : CalendarUnit → String
  | .day => "Day"
  | .week => "Week"
  | .month => "Month"

/-- Buckets of one calendar unit of the local clock. -/
structure CalendarPeriod where
  unit : CalendarUnit
  offset : UtcOffset
deriving DecidableEq

namespace CalendarPeriod

def firstDay : Int := Instant.firstSecond / 86400
def lastDay : Int := Instant.lastSecond / 86400

def day? (day : Int) : Option Int :=
  if firstDay ≤ day ∧ day ≤ lastDay then some day else none

def localDay? (period : CalendarPeriod) (t : Instant) : Option Int :=
  day? ((t.seconds + period.offset.seconds) / 86400)

def startOf (period : CalendarPeriod) (day : Int) : Option Int :=
  match period.unit with
  | .day => some day
  | .week => day? (day - Calendar.daysSinceMonday day)
  | .month =>
    let date := Date.ofDay day
    some (Calendar.monthStart date.year date.month)

/-- The first day of the unit after the one that starts on a day; at the end of the calendar a
day and a month have no successor and stay. -/
def startAfter (period : CalendarPeriod) (start : Int) : Option Int :=
  match period.unit with
  | .day => some ((day? (start + 1)).getD start)
  | .week => day? (start + 7)
  | .month =>
    let date := Date.ofDay start
    let next :=
      if date.month = 12 then Calendar.monthStart (date.year + 1) 1
      else Calendar.monthStart date.year (date.month + 1)
    some ((day? next).getD start)

/-- Local midnight; where that leaves the calendar, midnight in UTC. -/
def midnight (period : CalendarPeriod) (day : Int) : Option Instant :=
  Instant.at? (day * 86400 - period.offset.seconds) 0 <|> Instant.at? (day * 86400) 0

def align (period : CalendarPeriod) (t : Instant) : Option Instant := do
  let start ← period.startOf (← period.localDay? t)
  period.midnight start

def next (period : CalendarPeriod) (boundary : Instant) : Option Instant := do
  let start ← period.startOf (← period.localDay? boundary)
  period.midnight (← period.startAfter start)

def name (period : CalendarPeriod) : String :=
  "CalendarPeriod \x7b unit: " ++ period.unit.name ++ ", offset: " ++ period.offset.text ++ " \x7d"

end CalendarPeriod

inductive Period where
  | fixed (period : FixedPeriod)
  | calendar (period : CalendarPeriod)
deriving DecidableEq

def Period.grid : Period → Grid
  | .fixed period => ⟨period.align, period.next, period.name⟩
  | .calendar period => ⟨period.align, period.next, period.name⟩

end SeriesQuery
