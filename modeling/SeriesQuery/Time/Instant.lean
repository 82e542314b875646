import SeriesQuery.Value.Integer

/-!
# Instants

A point in time with a resolution of one nanosecond, between the first moment of the year
-262143 and the last of the year 262142. Every minute may end in a leap second, which clocks show
as second 60: it has the nanoseconds from the thousand millionth on behind the second before it.
What leaves the calendar is no instant, so arithmetic on instants answers an option.
-/

namespace SeriesQuery

namespace Instant

def firstSecond : Int := -8334601228800

def lastSecond : Int := 8210266876799

def firstNanos : Int := -8334601228800 * 1000000000

def lastNanos : Int := 8210266876800 * 1000000000 - 1

end Instant

/-- Whole seconds since 1970-01-01T00:00:00Z, and nanoseconds behind the last one. -/
structure Instant where
  seconds : Int
  subsecond : Nat
  first_le : Instant.firstSecond ≤ seconds
  le_last : seconds ≤ Instant.lastSecond
  subsecond_lt : subsecond < 1000000000 ∨ seconds % 60 = 59 ∧ subsecond < 2000000000
deriving DecidableEq

namespace Instant

theorem ext {a b : Instant} (h : a.seconds = b.seconds) (h' : a.subsecond = b.subsecond) :
    a = b := by
  cases a; cases b; cases h; cases h'; rfl

def IsLeap (t : Instant) : Prop := 1000000000 ≤ t.subsecond

instance (t : Instant) : Decidable t.IsLeap :=
  inferInstanceAs (Decidable (1000000000 ≤ t.subsecond))

/-- The place of an instant in the order of time: no second has more than two thousand million
nanoseconds. -/
def place (t : Instant) : Int := t.seconds * 2000000000 + t.subsecond

instance : LE Instant := ⟨fun a b => a.place ≤ b.place⟩
instance : LT Instant := ⟨fun a b => a.place < b.place⟩
instance (a b : Instant) : Decidable (a ≤ b) := inferInstanceAs (Decidable (a.place ≤ b.place))
instance (a b : Instant) : Decidable (a < b) := inferInstanceAs (Decidable (a.place < b.place))
instance : Max Instant := ⟨fun a b => if a ≤ b then b else a⟩
instance : Min Instant := ⟨fun a b => if a ≤ b then a else b⟩

theorem le_def {a b : Instant} : a ≤ b ↔ a.place ≤ b.place := Iff.rfl

theorem lt_def {a b : Instant} : a < b ↔ a.place < b.place := Iff.rfl

def at? (seconds : Int) (subsecond : Nat) : Option Instant :=
  if h : (firstSecond ≤ seconds ∧ seconds ≤ lastSecond) ∧
      (subsecond < 1000000000 ∨ seconds % 60 = 59 ∧ subsecond < 2000000000) then
    some ⟨seconds, subsecond, h.1.1, h.1.2, h.2⟩
  else none

/-- Nanoseconds since the epoch. Those of a leap second are also those of the second after it. -/
def nanos (t : Instant) : Int := t.seconds * 1000000000 + t.subsecond

/-- The instant at a number of nanoseconds, if the calendar reaches it. It is in no leap
second. -/
def ofNanos? (nanos : Int) : Option Instant :=
  at? (nanos / 1000000000) (nanos % 1000000000).toNat

def ofNanos (nanos : Int) (h : firstNanos ≤ nanos := by decide)
    (h' : nanos ≤ lastNanos := by decide) : Instant where
  seconds := nanos / 1000000000
  subsecond := (nanos % 1000000000).toNat
  first_le := by
    simp only [firstNanos, firstSecond] at *
    omega
  le_last := by
    simp only [lastNanos, lastSecond] at *
    omega
  subsecond_lt := .inl (by omega)

def epoch : Instant := .ofNanos 0

/-- The instant so many nanoseconds later, or earlier if there are fewer than none. Steps shorter
than a second end inside of a leap second, or in the second before it. A longer one leaves it,
and then it counts as the second before if the step goes forward, and as the second after if it
goes back. -/
def plus? (t : Instant) (nanos : Int) : Option Instant :=
  if t.IsLeap then
    if nanos.natAbs < 1000000000 ∧ t.subsecond + nanos < 2000000000 then
      at? t.seconds (t.subsecond + nanos).toNat
    else if 0 < nanos then ofNanos? (t.nanos - 1000000000 + nanos)
    else ofNanos? (t.nanos + nanos)
  else ofNanos? (t.nanos + nanos)

def millis (t : Instant) : Int := t.seconds * 1000 + t.subsecond / 1000000

def secondOfDay (t : Instant) : Int := t.seconds % 86400

theorem at?_eq_some {seconds : Int} {subsecond : Nat} {t : Instant} :
    at? seconds subsecond = some t ↔ t.seconds = seconds ∧ t.subsecond = subsecond := by
  unfold at?
  split
  · next h =>
    constructor
    · rintro ⟨⟩
      exact ⟨rfl, rfl⟩
    · rintro ⟨rfl, rfl⟩
      rfl
  · next h =>
    constructor
    · rintro ⟨⟩
    · rintro ⟨rfl, rfl⟩
      exact absurd ⟨⟨t.first_le, t.le_last⟩, t.subsecond_lt⟩ h

theorem ofNanos?_eq_some {nanos : Int} {t : Instant} :
    ofNanos? nanos = some t ↔ ¬ t.IsLeap ∧ t.nanos = nanos := by
  simp only [ofNanos?, at?_eq_some, IsLeap, Instant.nanos]
  omega

end Instant

/-- Nanoseconds from one instant to another. A leap second counts only if the time of day of the
other instant is past it: the clocks are compared without their dates. -/
def nanosBetween (start finish : Instant) : Int :=
  let leap :=
    if start.IsLeap ∧ start.secondOfDay < finish.secondOfDay then 1000000000
    else if finish.IsLeap ∧ finish.secondOfDay < start.secondOfDay then -1000000000
    else 0
  finish.nanos - start.nanos + leap

def microsBetween (start finish : Instant) : Int :=
  (nanosBetween start finish).tdiv 1000

/-- Elapsed seconds as a decimal, negative if `finish` is earlier: whole microseconds, or whole
milliseconds where the microseconds exceed 64 bits. -/
def secondsBetween (start finish : Instant) : Float :=
  let micros := microsBetween start finish
  if FitsInteger micros then Float.ofInt micros / 1000000
  else Float.ofInt ((nanosBetween start finish).tdiv 1000000) / 1000

end SeriesQuery
