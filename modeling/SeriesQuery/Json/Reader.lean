import SeriesQuery.Decimal.Binary
import SeriesQuery.Json.Basic
import SeriesQuery.Text.Integer

/-!
# Reading JSON

A JSON text is read into its tree. A number without point and exponent is a whole number if it
is at least `-2 ^ 63` and below `2 ^ 64`; all others, and `-0`, are decimals. A decimal takes the
digits of its text that fit 64 bits and scales them by a power of ten, so the last place of a
long number is not always the nearest one; a decimal beyond the doubles is refused. Arrays and
objects are nested 127 deep at most.
-/

namespace SeriesQuery.Json

open SeriesQuery.Text (digit?)

def skipSpace (text : List Char) : List Char :=
  text.dropWhile fun c => c = ' ' || c = '\n' || c = '\r' || c = '\t'

/-! ## Strings -/

def hexDigit? (c : Char) : Option Nat :=
  if '0' ≤ c ∧ c ≤ '9' then some (c.toNat - 48)
  else if 'a' ≤ c ∧ c ≤ 'f' then some (c.toNat - 87)
  else if 'A' ≤ c ∧ c ≤ 'F' then some (c.toNat - 55)
  else none

def hex? (a b c d : Char) : Option Nat := do
  return (((← hexDigit? a) * 16 + (← hexDigit? b)) * 16 + (← hexDigit? c)) * 16 + (← hexDigit? d)

def shortEscape? (c : Char) : Option Char :=
  match c with
  | '"' => some '"'
  | '\\' => some '\\'
  | '/' => some '/'
  | 'b' => some '\x08'
  | 'f' => some '\x0c'
  | 'n' => some '\n'
  | 'r' => some '\r'
  | 't' => some '\t'
  | _ => none

/-- The characters up to the closing quote, in reverse on top of `read`, and what follows it. A
character outside the first plane is escaped as two surrogates; a lone surrogate is refused. -/
def readChars (read : List Char) : List Char → Option (List Char × List Char)
  | [] => none
  | '"' :: rest => some (read.reverse, rest)
  | '\\' :: 'u' :: a :: b :: c :: d :: rest => do
    let unit ← hex? a b c d
    if unit < 0xD800 ∨ 0xE000 ≤ unit then readChars (Char.ofNat unit :: read) rest
    else if 0xDC00 ≤ unit then none
    else
      match rest with
      | '\\' :: 'u' :: e :: f :: g :: h :: rest => do
        let low ← hex? e f g h
        if 0xDC00 ≤ low ∧ low < 0xE000 then
          let code := 0x10000 + (unit - 0xD800) * 0x400 + (low - 0xDC00)
          readChars (Char.ofNat code :: read) rest
        else none
      | _ => none
  | '\\' :: c :: rest => do readChars ((← shortEscape? c) :: read) rest
  | c :: rest => if c.toNat < 0x20 then none else readChars (c :: read) rest

/-! ## Numbers -/

/-- The digits of a number as far as they fit 64 bits, and the power of ten that is left. -/
structure Significand where
  digits : Nat
  exponent : Int

def highestDigits : Nat := 18446744073709551615

/-- Appends the digits before the point: once one does not fit, it and all later ones only count
in the exponent. -/
def Significand.appendWhole : Significand → List Nat → Significand
  | s, [] => s
  | s, d :: rest =>
    let digits := 10 * s.digits + d
    if digits ≤ highestDigits then appendWhole ⟨digits, s.exponent⟩ rest
    else ⟨s.digits, s.exponent + (rest.length + 1)⟩

def Significand.appendFraction : Significand → List Nat → Significand
  | s, [] => s
  | s, d :: rest =>
    let digits := 10 * s.digits + d
    if digits ≤ highestDigits then appendFraction ⟨digits, s.exponent - 1⟩ rest else s

def splitDigits : List Char → List Nat × List Char
  | [] => ([], [])
  | c :: rest =>
    match digit? c with
    | some d => let (digits, rest) := splitDigits rest; (d :: digits, rest)
    | none => ([], c :: rest)

/-- Scales by a power of ten: one multiplication, or divisions by at most `10 ^ 308` each. There
is no answer beyond the doubles. -/
def scaleDecimal (value : Float) (exponent : Int) : Option Float :=
  if exponent.natAbs ≤ 308 then
    let power := Float.ofScientific 1 false exponent.natAbs
    if 0 ≤ exponent then
      let scaled := value * power
      if scaled.isInf then none else some scaled
    else some (value / power)
  else if value == 0 then some value
  else if 0 ≤ exponent then none
  else scaleDecimal (value / Float.ofScientific 1 false 308) (exponent + 308)
termination_by exponent.natAbs

def readExponent (text : List Char) : Option (Int × List Char) :=
  let (negative, text) : Bool × List Char :=
    match text with
    | '-' :: rest => (true, rest)
    | '+' :: rest => (false, rest)
    | text => (false, text)
  match splitDigits text with
  | ([], _) => none
  | (digits, rest) =>
    let size : Nat := digits.foldl (fun n d => 10 * n + d) 0
    some (if negative then -(size : Int) else size, rest)

def readUnsigned (negative : Bool) (text : List Char) : Option (Json × List Char) := do
  let (digits, rest) := splitDigits text
  match digits with
  | [] | 0 :: _ :: _ => none
  | _ =>
    let whole := Significand.appendWhole ⟨0, 0⟩ digits
    let decimal (s : Significand) (exponent : Int) : Option Json :=
      (scaleDecimal (Float.ofNat s.digits) (s.exponent + exponent)).map fun size =>
        .decimal (if negative then -size else size)
    let withExponent (s : Significand) (rest : List Char) : Option (Json × List Char) := do
      match rest with
      | c :: tail =>
        if c = 'e' ∨ c = 'E' then
          let (exponent, rest) ← readExponent tail
          return (← decimal s exponent, rest)
        else return (← decimal s 0, rest)
      | [] => return (← decimal s 0, [])
    match rest with
    | '.' :: tail =>
      match splitDigits tail with
      | ([], _) => none
      | (fraction, rest) => withExponent (whole.appendFraction fraction) rest
    | 'e' :: _ | 'E' :: _ => withExponent whole rest
    | _ =>
      if whole.exponent ≠ 0 then withExponent whole rest
      else if !negative then some (.integer whole.digits, rest)
      else if 0 < whole.digits ∧ whole.digits ≤ 9223372036854775808 then
        some (.integer (-(whole.digits : Int)), rest)
      else some (.decimal (-Float.ofNat whole.digits), rest)

/-! ## Values -/

mutual

/-- The value at the head of a text, with arrays and objects nested `depth` deep at most. -/
def readValue : (fuel depth : Nat) → List Char → Option (Json × List Char)
  | 0, _, _ => none
  | fuel + 1, depth, text =>
    match skipSpace text with
    | 'n' :: 'u' :: 'l' :: 'l' :: rest => some (.null, rest)
    | 't' :: 'r' :: 'u' :: 'e' :: rest => some (.bool true, rest)
    | 'f' :: 'a' :: 'l' :: 's' :: 'e' :: rest => some (.bool false, rest)
    | '"' :: rest => do
      let (chars, rest) ← readChars [] rest
      return (.string (String.ofList chars), rest)
    | '[' :: rest =>
      match depth with
      | 0 => none
      | depth + 1 =>
        match skipSpace rest with
        | ']' :: rest => some (.array [], rest)
        | rest => do
          let (items, rest) ← readItems fuel depth rest
          return (.array items, rest)
    | '{' :: rest =>
      match depth with
      | 0 => none
      | depth + 1 =>
        match skipSpace rest with
        | '}' :: rest => some (.object [], rest)
        | rest => do
          let (entries, rest) ← readEntries fuel depth rest
          return (.object entries, rest)
    | '-' :: rest => readUnsigned true rest
    | rest => readUnsigned false rest

def readItems : (fuel depth : Nat) → List Char → Option (List Json × List Char)
  | 0, _, _ => none
  | fuel + 1, depth, text => do
    let (item, rest) ← readValue fuel depth text
    match skipSpace rest with
    | ',' :: rest =>
      let (items, rest) ← readItems fuel depth rest
      return (item :: items, rest)
    | ']' :: rest => return ([item], rest)
    | _ => none

def readEntries : (fuel depth : Nat) → List Char → Option (List (String × Json) × List Char)
  | 0, _, _ => none
  | fuel + 1, depth, text => do
    match skipSpace text with
    | '"' :: rest =>
      let (chars, rest) ← readChars [] rest
      match skipSpace rest with
      | ':' :: rest =>
        let (value, rest) ← readValue fuel depth rest
        let entry := (String.ofList chars, value)
        match skipSpace rest with
        | ',' :: rest =>
          let (entries, rest) ← readEntries fuel depth rest
          return (entry :: entries, rest)
        | '}' :: rest => return ([entry], rest)
        | _ => none
      | _ => none
    | _ => none

end

def depthLimit : Nat := 127

/-- A bound for the nested steps of the reader: of two that follow each other, one consumes a
character. -/
def stepLimit (text : List Char) : Nat := 2 * text.length + 2

def read? (text : String) : Option Json :=
  let chars := text.toList
  match readValue (stepLimit chars) depthLimit chars with
  | some (value, rest) => if skipSpace rest = [] then some value else none
  | none => none

end SeriesQuery.Json
