/-!
# The binary form of a decimal

A decimal is a double. A finite one is `± mantissa · 2 ^ exponent` with whole numbers; the two
are read from its bits, so what is computed from them is exact.
-/

namespace SeriesQuery.Decimal

/-- `2 ^ 52`: mantissas of full length have this bit, which is not stored. -/
def hiddenBit : Nat := 4503599627370496

/-- What the bits of a double say. -/
inductive Binary where
  | finite (negative : Bool) (mantissa : Nat) (exponent : Int)
  | infinite (negative : Bool)
  | notANumber
deriving DecidableEq, Repr

def Binary.ofFloat (x : Float) : Binary :=
  let bits := x.toBits.toNat
  let negative := bits >>> 63 == 1
  let biased : Nat := (bits >>> 52) % 2048
  let fraction : Nat := bits % hiddenBit
  if biased = 2047 then
    if fraction = 0 then .infinite negative else .notANumber
  else if biased = 0 then .finite negative fraction (-1074)
  else .finite negative (hiddenBit + fraction) ((biased : Int) - 1075)

def truncate? (x : Float) : Option Int :=
  match Binary.ofFloat x with
  | .finite negative mantissa exponent =>
    let size : Nat :=
      if 0 ≤ exponent then mantissa <<< exponent.toNat else mantissa >>> (-exponent).toNat
    some (if negative then -(size : Int) else size)
  | _ => none

end SeriesQuery.Decimal
