import SeriesQuery.Decimal.Binary

/-!
# Shortest digits

Of all decimal fractions that round to a double, the ones with the fewest digits, and of these
the nearest. The test is exact: a double stands for the interval of reals that round to it, and
for one, two, … seventeen digits its two neighbours on that decimal grid are tried.
-/

namespace SeriesQuery.Decimal

/-- The number `digits · 10 ^ exponent`; no trailing zero in `digits`, except for zero itself. -/
structure Scientific where
  digits : Nat
  exponent : Int
deriving DecidableEq, Repr

inductive Tie where
  | up
  | even
deriving DecidableEq, Repr

/-- A double in units of a quarter of its last place: it is `4 · mantissa` units, and the reals
that round to it run from `low` to `high`, ends included if its mantissa is even. The interval
below a power of two is half as long. -/
structure Interval where
  low : Nat
  value : Nat
  high : Nat
  closed : Bool
  /-- A unit is `2 ^ exponent`. -/
  exponent : Int

def Interval.ofBinary (mantissa : Nat) (exponent : Int) : Interval where
  low := if mantissa = hiddenBit ∧ exponent ≠ -1074 then 4 * mantissa - 1 else 4 * mantissa - 2
  value := 4 * mantissa
  high := 4 * mantissa + 2
  closed := mantissa % 2 == 0
  exponent := exponent - 2

/-- `n · 2 ^ exponent / 10 ^ place` as a fraction. -/
def scale (exponent place : Int) (n : Nat) : Nat × Nat :=
  ((n <<< exponent.toNat) * Nat.pow 10 (-place).toNat,
    (1 <<< (-exponent).toNat) * Nat.pow 10 place.toNat)

def Interval.admits (interval : Interval) (place : Int) (candidate : Nat) : Bool :=
  let (low, below) := scale interval.exponent place interval.low
  let (high, above) := scale interval.exponent place interval.high
  if interval.closed then low ≤ candidate * below && candidate * above ≤ high
  else low < candidate * below && candidate * above < high

def Interval.nearest? (interval : Interval) (tie : Tie) (place : Int) : Option Nat :=
  let (num, den) := scale interval.exponent place interval.value
  let below := num / den
  let above := below + 1
  let rest := num % den
  let preferAbove : Bool :=
    if 2 * rest = den then (match tie with | .up => true | .even => below % 2 == 1)
    else 2 * rest > den
  let (first, second) := if preferAbove then (above, below) else (below, above)
  if interval.admits place first then some first
  else if interval.admits place second then some second
  else none

def digitCount (n : Nat) : Nat :=
  (Nat.toDigits 10 n).length

/-- The place of the first digit of `n · 2 ^ exponent`: it is at least `10 ^ place` and below
`10 ^ (place + 1)`. -/
def leadingPlace (exponent : Int) (n : Nat) : Int :=
  if 0 ≤ exponent then digitCount (n <<< exponent.toNat) - 1
  else
    -- `n / 2 ^ k` is `n · 5 ^ k / 10 ^ k`
    let k := (-exponent).toNat
    digitCount (n * Nat.pow 5 k) - 1 - k

def Scientific.normalize : Nat → Scientific → Scientific
  | 0, s => s
  | fuel + 1, s =>
    if s.digits ≠ 0 ∧ s.digits % 10 = 0 then
      Scientific.normalize fuel ⟨s.digits / 10, s.exponent + 1⟩
    else s

def Interval.search (interval : Interval) (tie : Tie) : Nat → Int → Scientific
  | 0, place => ⟨interval.value, place⟩
  | count + 1, place =>
    match interval.nearest? tie place with
    | some digits => (Scientific.mk digits place).normalize 20
    | none => interval.search tie count (place - 1)

/-- The shortest digits of the double `mantissa · 2 ^ exponent`. -/
def shortest (tie : Tie) (mantissa : Nat) (exponent : Int) : Scientific :=
  if mantissa = 0 then ⟨0, 0⟩
  else
    let interval := Interval.ofBinary mantissa exponent
    interval.search tie 18 (leadingPlace exponent mantissa)

end SeriesQuery.Decimal
