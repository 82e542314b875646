import SeriesQuery.Decimal.Shortest
import SeriesQuery.Text.Integer

/-!
# Writing decimals

A decimal is written with its shortest digits. A layout says between which exponents it is
written positionally, whether a whole number keeps `.0`, and how its infinities read. The two
layouts of the library are the text of a value and the number of a JSON document.
-/

namespace SeriesQuery.Decimal

open SeriesQuery.Text (writeNat writeInteger)

structure Layout where
  tie : Tie
  /-- Whether a first digit at the place `10 ^ e` is written positionally. -/
  positional : Int → Bool
  /-- What follows a whole number. -/
  wholeTail : String

def valueLayout : Layout where
  tie := .up
  positional := fun _ => true
  wholeTail := ""

/-- A JSON number is positional from `10 ^ -5` to below `10 ^ 16`; a whole number keeps `.0`. -/
def jsonLayout : Layout where
  tie := .even
  positional := fun e => -5 ≤ e && e ≤ 15
  wholeTail := ".0"

def Layout.writePositional (layout : Layout) (digits : List Char) (exponent : Int) : String :=
  if 0 ≤ exponent then
    String.ofList (digits ++ List.replicate exponent.toNat '0') ++ layout.wholeTail
  else
    let places := (-exponent).toNat
    if places < digits.length then
      let whole := digits.take (digits.length - places)
      let fraction := digits.drop (digits.length - places)
      String.ofList (whole ++ '.' :: fraction)
    else
      String.ofList ('0' :: '.' :: List.replicate (places - digits.length) '0' ++ digits)

def writeExponential (digits : List Char) (leading : Int) : String :=
  let sign := if leading < 0 then '-' else '+'
  let mantissa :=
    match digits with
    | first :: second :: rest => first :: '.' :: second :: rest
    | digits => digits
  String.ofList (mantissa ++ 'e' :: sign :: writeNat leading.natAbs)

def Layout.writeFinite (layout : Layout) (negative : Bool) (mantissa : Nat) (exponent : Int) :
    String :=
  let s := shortest layout.tie mantissa exponent
  let digits := writeNat s.digits
  let leading := s.exponent + digits.length - 1
  let size :=
    if layout.positional leading then layout.writePositional digits s.exponent
    else writeExponential digits leading
  if negative then "-" ++ size else size

def text (x : Float) : String :=
  match Binary.ofFloat x with
  | .notANumber => "NaN"
  | .infinite negative => if negative then "-inf" else "inf"
  | .finite negative mantissa exponent => valueLayout.writeFinite negative mantissa exponent

/-- The JSON number of a finite decimal; JSON has no other decimals. -/
def jsonText? (x : Float) : Option String :=
  match Binary.ofFloat x with
  | .finite negative mantissa exponent => some (jsonLayout.writeFinite negative mantissa exponent)
  | _ => none

end SeriesQuery.Decimal
