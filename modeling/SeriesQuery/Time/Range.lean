import SeriesQuery.Time.Instant

/-!
# Time ranges

A half-open range of instants; a missing bound is unbounded.
-/

namespace SeriesQuery

/-- The instants from `start` on and before `stop`. -/
structure TimeRange where
  start : Option Instant
  stop : Option Instant
deriving DecidableEq

namespace TimeRange

def all : TimeRange := ⟨none, none⟩

def contains (range : TimeRange) (t : Instant) : Bool :=
  range.start.all (· ≤ t) && range.stop.all (t < ·)

/-- The tighter of two bounds, either of which may be missing. -/
def tighten (choose : Instant → Instant → Instant) :
    Option Instant → Option Instant → Option Instant
  | some a, some b => some (choose a b)
  | some a, none => some a
  | none, b => b

def intersect (a b : TimeRange) : TimeRange :=
  ⟨tighten max a.start b.start, tighten min a.stop b.stop⟩

end TimeRange

end SeriesQuery
