import SeriesQuery.Filter
import SeriesQuery.Time.PeriodSpec

/-!
# Configuration

What an engine is configured with: the offset from UTC in which fixed periods are counted, the
limit of a gap, and the filter of its log.
-/

namespace SeriesQuery

structure EngineConfig where
  /-- Seconds east of UTC; whether it is an offset is found out when it is used. -/
  utcOffset : Int32
  gapLimit : UInt64
  logFilter : String
deriving DecidableEq, Repr

namespace EngineConfig

def standard : EngineConfig := ⟨0, UInt64.ofNat GapFill.defaultLimit, "tidal=info"⟩

def lowestOffset : Int := -2147483648
def highestOffset : Int := 2147483647

def highestLimit : Int := 18446744073709551615

def settingNumber? (low high : Int) (text : Option String) : Option Int := do
  (Text.readInteger low high (← text).toList).toOption

/-- The configuration of the settings that are given as texts. A setting that is missing or no
number keeps its standard. -/
def ofSettings (offset limit filter : Option String) : EngineConfig where
  utcOffset := ((settingNumber? lowestOffset highestOffset offset).map Int32.ofInt).getD
    standard.utcOffset
  gapLimit := ((settingNumber? 0 highestLimit limit).map UInt64.ofInt).getD standard.gapLimit
  logFilter := filter.getD standard.logFilter

def timeZone (config : EngineConfig) : Except CompileError UtcOffset :=
  UtcOffset.build config.utcOffset

def fixedPeriod (config : EngineConfig) (millis : Int64) : Except CompileError Period := do
  return .fixed (← FixedPeriod.build millis (← config.timeZone))

def gapFill (config : EngineConfig) (grid : Grid) (mode : FillMode) : Filter :=
  .gapFill ⟨grid, mode, config.gapLimit.toNat⟩

end EngineConfig

end SeriesQuery
