import SeriesQuery.Decimal.Binary

/-!
# Remainders of decimals

The remainder of a division that is rounded toward zero. It is exact: the doubles are written
over one power of two, their mantissas divided as whole numbers, and the remainder is a double.
-/

namespace SeriesQuery.Decimal

/-- The bits of `mantissa · 2 ^ exponent`, where the mantissa has at most 53 bits and the number
is a double. -/
def encodeSize (mantissa : Nat) (exponent : Int) : Nat :=
  if mantissa = 0 then 0
  else
    let shift : Int := 52 - (Nat.log2 mantissa : Int)
    -- the exponent of a number with a mantissa of 53 bits, or of the smallest numbers
    let scaled : Int := max (exponent - shift) (-1074)
    let shifted : Nat :=
      if scaled ≤ exponent then mantissa <<< (exponent - scaled).toNat
      else mantissa >>> (scaled - exponent).toNat
    if shifted < hiddenBit then shifted else (scaled + 1074).toNat * hiddenBit + shifted

def Binary.toFloat : Binary → Float
  | .notANumber => 0 / 0
  | .infinite negative => if negative then -(1 / 0) else 1 / 0
  | .finite negative mantissa exponent =>
    let size := Float.ofBits (UInt64.ofNat (encodeSize mantissa exponent))
    if negative then -size else size

/-- The remainder of `a / b`, with the sign of `a`. -/
def remainder (a b : Float) : Float :=
  match Binary.ofFloat a, Binary.ofFloat b with
  | .finite negative mantissa exponent, .finite _ divisor place =>
    if divisor = 0 then 0 / 0
    else
      let common := min exponent place
      let dividend := mantissa <<< (exponent - common).toNat
      let rest := dividend % divisor <<< (place - common).toNat
      (Binary.finite negative rest common).toFloat
  | .finite _ _ _, .infinite _ => a
  | _, _ => 0 / 0

end SeriesQuery.Decimal
