/-!
# Integers as text

An integer is written in ASCII digits, after a minus sign if it is negative. It is read within
bounds: an optional sign and at least one ASCII digit, nothing else. The reader works from the
left, so a number that leaves its bounds is refused there, whatever follows.
-/

namespace SeriesQuery.Text

inductive IntegerFault where
  | empty
  | invalidDigit
  | tooLarge
  | tooSmall
deriving DecidableEq, Repr

def IntegerFault.message : IntegerFault → String
  | .empty => "cannot parse integer from empty string"
  | .invalidDigit => "invalid digit found in string"
  | .tooLarge => "number too large to fit in target type"
  | .tooSmall => "number too small to fit in target type"

def digit? (c : Char) : Option Nat :=
  if '0' ≤ c ∧ c ≤ '9' then some (c.toNat - '0'.toNat) else none

def readUp (high : Int) : Int → List Char → Except IntegerFault Int
  | value, [] => .ok value
  | value, c :: rest =>
    match digit? c with
    | none => .error .invalidDigit
    | some d =>
      let value := 10 * value + d
      if value ≤ high then readUp high value rest else .error .tooLarge

def readDown (low : Int) : Int → List Char → Except IntegerFault Int
  | value, [] => .ok value
  | value, c :: rest =>
    match digit? c with
    | none => .error .invalidDigit
    | some d =>
      let value := 10 * value - d
      if low ≤ value then readDown low value rest else .error .tooSmall

/-- The integer between `low` and `high` that a text writes. A minus sign is known only where
the bounds admit negative numbers. -/
def readInteger (low high : Int) (text : List Char) : Except IntegerFault Int :=
  match text with
  | [] => .error .empty
  | '+' :: [] => .error .invalidDigit
  | '+' :: digits => readUp high 0 digits
  | '-' :: digits =>
    if low < 0 ∧ digits ≠ [] then readDown low 0 digits else .error .invalidDigit
  | digits => readUp high 0 digits

def writeNat (n : Nat) : List Char :=
  Nat.toDigits 10 n

def writeInteger (n : Int) : List Char :=
  if n < 0 then '-' :: writeNat n.natAbs else writeNat n.natAbs

def writePadded (width n : Nat) : List Char :=
  let digits := writeNat n
  List.replicate (width - digits.length) '0' ++ digits

end SeriesQuery.Text
