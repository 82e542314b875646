import SeriesQuery.Error.Compile
import SeriesQuery.Time.Period

/-!
# Descriptions of periods

A period as a user writes it, with widths and offsets in seconds. Building it finds out whether
there is such a period.
-/

namespace SeriesQuery

inductive PeriodSpec where
  | fixed (seconds : Int64) (offset : Int32)
  | calendar (unit : CalendarUnit) (offset : Int32)
deriving DecidableEq

def UtcOffset.build (seconds : Int32) : Except CompileError UtcOffset :=
  match UtcOffset.ofSeconds? seconds.toInt with
  | some offset => .ok offset
  | none => .error (.invalidConfig (.invalidOffset seconds.toInt))

def FixedPeriod.build (millis : Int64) (offset : UtcOffset) : Except CompileError FixedPeriod :=
  match FixedPeriod.ofMillis? millis offset with
  | some period => .ok period
  | none => .error (.invalidConfig (.periodNotPositive millis.toInt))

namespace PeriodSpec

def width (seconds : Int64) : Except CompileError Int64 :=
  match integer? (seconds.toInt * 1000) with
  | some millis => .ok millis
  | none => .error (.invalidConfig (.periodTooLong seconds.toInt))

def build : PeriodSpec → Except CompileError Period
  | .fixed seconds offset => do
    let millis ← width seconds
    return .fixed (← FixedPeriod.build millis (← UtcOffset.build offset))
  | .calendar unit offset => do
    return .calendar ⟨unit, ← UtcOffset.build offset⟩

end PeriodSpec

end SeriesQuery
