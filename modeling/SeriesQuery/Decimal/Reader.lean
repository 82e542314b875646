import SeriesQuery.Decimal.Shortest
import SeriesQuery.Text.Integer

/-!
# Reading decimals

A decimal text is an optional sign and then `inf`, `infinity` or `nan` in any case, or digits
with an optional point and an optional exponent; at least one digit stands before the exponent
and, if there is an exponent, in it. The decimal is the nearest double.
-/

namespace SeriesQuery.Decimal

open SeriesQuery.Text (digit?)

inductive ReadFault where
  | empty
  | invalid
deriving DecidableEq, Repr

def ReadFault.message : ReadFault → String
  | .empty => "cannot parse float from empty string"
  | .invalid => "invalid float literal"

/-- The double nearest to `digits · 10 ^ exponent`. Beyond `10 ^ 310` that is infinity, below
`10 ^ -330` zero. -/
def nearest (negative : Bool) (digits : Nat) (exponent : Int) : Float :=
  let size : Float :=
    if digits = 0 then 0
    else
      let leading := digitCount digits + exponent
      if 310 < leading then 1 / 0
      else if leading < -330 then 0
      else Float.ofScientific digits (decide (exponent < 0)) exponent.natAbs
  if negative then -size else size

/-- The leading ASCII digits of a text as a number appended to `value`, their count, and what
follows them. -/
def takeDigits : Nat → Nat → List Char → Nat × Nat × List Char
  | value, count, [] => (value, count, [])
  | value, count, c :: rest =>
    match digit? c with
    | some d => takeDigits (10 * value + d) (count + 1) rest
    | none => (value, count, c :: rest)

def readExponent : List Char → Option Int
  | [] => some 0
  | mark :: rest =>
    if mark = 'e' ∨ mark = 'E' then
      let (negative, digits) : Bool × List Char :=
        match rest with
        | '-' :: digits => (true, digits)
        | '+' :: digits => (false, digits)
        | digits => (false, digits)
      match takeDigits 0 0 digits with
      | (size, _ + 1, []) => some (if negative then -(size : Int) else size)
      | _ => none
    else none

def readNumber (text : List Char) : Option (Nat × Int) :=
  let (whole, wholeCount, rest) := takeDigits 0 0 text
  let (digits, count, rest) : Nat × Nat × List Char :=
    match rest with
    | '.' :: fraction => takeDigits whole 0 fraction
    | rest => (whole, 0, rest)
  if wholeCount + count = 0 then none
  else (readExponent rest).map fun exponent => (digits, exponent - count)

def readUnsigned (negative : Bool) (text : List Char) : Except ReadFault Float :=
  match readNumber text with
  | some (digits, exponent) => .ok (nearest negative digits exponent)
  | none =>
    let word := String.ofList (text.map Char.toLower)
    if word = "inf" ∨ word = "infinity" then .ok (if negative then -(1 / 0) else 1 / 0)
    else if word = "nan" then .ok (0 / 0)
    else .error .invalid

def read (text : List Char) : Except ReadFault Float :=
  match text with
  | [] => .error .empty
  | '-' :: rest => readUnsigned true rest
  | '+' :: rest => readUnsigned false rest
  | rest => readUnsigned false rest

end SeriesQuery.Decimal
