import SeriesQuery.Text.Blank
import SeriesQuery.Text.Integer
import SeriesQuery.Time.Calendar
import SeriesQuery.Time.Instant

/-!
# Written instants

An instant is written as a date, a time and the mark of UTC; the fraction of the second has no,
three, six or nine digits, as few as are exact. RFC 3339 texts are read in two ways: strictly, as
the conversion of a value does, and with blanks and short numbers allowed, as documents do.
-/

namespace SeriesQuery

open SeriesQuery.Text (writePadded digit? isBlank trimStart)

namespace Instant

/-- The fraction of a second behind its point, in as few groups of three digits as are exact. -/
def fraction (nanos : Nat) : List Char :=
  if nanos = 0 then []
  else if nanos % 1000000 = 0 then '.' :: writePadded 3 (nanos / 1000000)
  else if nanos % 1000 = 0 then '.' :: writePadded 6 (nanos / 1000)
  else '.' :: writePadded 9 nanos

/-- A year has four digits; outside of 0 to 9999 it has a sign. -/
def writeYear (year : Int) : List Char :=
  if 0 ≤ year ∧ year ≤ 9999 then writePadded 4 year.natAbs
  else (if year < 0 then '-' else '+') :: writePadded 4 year.natAbs

/-- The second that a clock shows: a leap second has the number 60. -/
def clockSecond (t : Instant) : Nat :=
  (t.seconds % 60).toNat + t.subsecond / 1000000000

def write (separator : Char) (zone : String) (t : Instant) : String :=
  let date := Date.ofDay (t.seconds / 86400)
  let minute := (t.secondOfDay / 60).toNat
  let dateText :=
    writeYear date.year ++ '-' :: writePadded 2 date.month ++ '-' :: writePadded 2 date.day
  let timeText := writePadded 2 (minute / 60) ++ ':' :: writePadded 2 (minute % 60) ++
    ':' :: writePadded 2 t.clockSecond ++ fraction (t.subsecond % 1000000000)
  String.ofList (dateText ++ separator :: timeText) ++ zone

def text (t : Instant) : String := t.write 'T' "+00:00"

def inMessage (t : Instant) : String := t.write ' ' " UTC"

def inDocument (t : Instant) : String := t.write 'T' "Z"

example : (at? 1483228799 1500000000).map inDocument = some "2016-12-31T23:59:60.500Z" := by decide

inductive ReadFault where
  | outOfRange
  | invalid
  | tooShort
  | tooLong
deriving DecidableEq, Repr

def ReadFault.message : ReadFault → String
  | .outOfRange => "input is out of range"
  | .invalid => "input contains invalid characters"
  | .tooShort => "premature end of input"
  | .tooLong => "trailing input"

abbrev Reader := StateT (List Char) (Except ReadFault)

def orOutOfRange {α : Type} : Option α → Reader α
  | some a => pure a
  | none => throw .outOfRange

namespace Reader

def literal (c : Char) : Reader Unit := fun text =>
  match text with
  | [] => .error .tooShort
  | d :: rest => if d = c then .ok ((), rest) else .error .invalid

def digit : Reader Nat := fun text =>
  match text with
  | [] => .error .tooShort
  | c :: rest =>
    match digit? c with
    | some d => .ok (d, rest)
    | none => .error .invalid

def twoDigits : Reader Nat := do
  let tens ← digit
  let ones ← digit
  return 10 * tens + ones

def fourDigits : Reader Nat := do
  let high ← twoDigits
  let low ← twoDigits
  return 100 * high + low

def digitsUpTo : Nat → Nat → Nat → Reader (Nat × Nat)
  | 0, value, count => pure (value, count)
  | limit + 1, value, count => do
    match (← get) with
    | c :: rest =>
      match digit? c with
      | some d => do
        set rest
        digitsUpTo limit (10 * value + d) (count + 1)
      | none => pure (value, count)
    | [] => pure (value, count)

def number (limit : Nat) : Reader (Nat × Nat) := do
  match (← get) with
  | [] => throw .tooShort
  | c :: _ =>
    if (digit? c).isNone then throw .invalid
    digitsUpTo limit 0 0

/-- The nanoseconds behind a point, if there is one; digits past the ninth are skipped. -/
def nanoseconds : Reader Nat := do
  match (← get) with
  | '.' :: rest =>
    set rest
    let (value, count) ← number 9
    modify fun text => text.dropWhile fun c => (digit? c).isSome
    return value * Nat.pow 10 (9 - count)
  | _ => return 0

def offsetMinutes : Reader Nat := do
  match (← get) with
  | [] => throw .tooShort
  | [c] => throw (if c.toNat < 128 then .tooShort else .invalid)
  | _ =>
    let tens ← digit
    let ones ← digit
    if 6 ≤ tens then throw .outOfRange
    return 10 * tens + ones

/-- The offset from UTC in seconds: `Z`, or a sign, hours, a separator and minutes. -/
def offset (separator : Reader Unit) : Reader Int := do
  match (← get) with
  | [] => throw .tooShort
  | c :: rest =>
    set rest
    if c = 'Z' ∨ c = 'z' then return 0
    else if c = '+' ∨ c = '-' ∨ c = '\u2212' then
      match rest with
      | [] => throw .tooShort
      | [d] => throw (if d.toNat < 128 then .tooShort else .invalid)
      | _ =>
        let hours ← twoDigits
        separator
        let minutes ← offsetMinutes
        let size : Int := hours * 3600 + minutes * 60
        return if c = '+' then size else -size
    else throw .invalid

/-- Ends the reading of an instant from its parts. Second 60 is the leap second behind second
59. -/
def finish (day : Int) (hour minute second nanos : Nat) (offset : Int) : Reader Instant := do
  if offset ≤ -86400 ∨ 86400 ≤ offset then throw .outOfRange
  let clock : Int := hour * 3600 + minute * 60 + min second 59
  let leap := if second = 60 then 1000000000 else 0
  orOutOfRange (Instant.at? (day * 86400 + clock - offset) (nanos + leap))

example : (finish 17166 23 59 60 500000000 0 []).map Prod.fst =
    .ok ⟨1483228799, 1500000000, by decide, by decide, by decide⟩ := rfl

/-- A strict RFC 3339 text: two digits for each part, `T`, `t` or a space, a colon in the
offset. -/
def strict : Reader Instant := do
  if (String.ofList (← get)).utf8ByteSize < 19 then throw .tooShort
  let year ← fourDigits
  literal '-'
  let month ← twoDigits
  literal '-'
  let day ← twoDigits
  let date ← orOutOfRange (Date.mk year month day).day?
  match (← get) with
  | c :: rest => if c = 'T' ∨ c = 't' ∨ c = ' ' then set rest else throw .invalid
  | [] => throw .tooShort
  let hour ← twoDigits
  literal ':'
  let minute ← twoDigits
  literal ':'
  let second ← twoDigits
  let nanos ← nanoseconds
  if 24 ≤ hour ∨ 60 ≤ minute ∨ 61 ≤ second then throw .outOfRange
  let offset ← offset (literal ':')
  unless (← get).isEmpty do throw .tooLong
  finish date hour minute second nanos offset

def skipBlanks : Reader Unit :=
  modify trimStart

def looseNumber : Reader Nat := do
  skipBlanks
  let (value, _) ← number 2
  return value

/-- A year of up to four digits, or of any number of digits behind a sign. -/
def looseYear : Reader Int := do
  skipBlanks
  let text ← get
  match text with
  | '-' :: rest =>
    set rest
    let (value, _) ← number rest.length
    return -(value : Int)
  | '+' :: rest =>
    set rest
    let (value, _) ← number rest.length
    return value
  | _ =>
    let (value, _) ← number 4
    return value

/-- An RFC 3339 text in which blanks may stand around the parts, the parts may be short, and
`UTC` may stand for the offset. -/
def loose : Reader Instant := do
  let year ← looseYear
  skipBlanks
  literal '-'
  let month ← looseNumber
  skipBlanks
  literal '-'
  let day ← looseNumber
  match (← get) with
  | c :: rest => if c = 'T' ∨ c = 't' ∨ c = ' ' then set rest else throw .invalid
  | [] => throw .tooShort
  let hour ← looseNumber
  skipBlanks
  literal ':'
  let minute ← looseNumber
  skipBlanks
  literal ':'
  let second ← looseNumber
  let nanos ← nanoseconds
  skipBlanks
  if 24 ≤ hour ∨ 60 ≤ minute ∨ 61 ≤ second then throw .outOfRange
  let text ← get
  let offset ←
    if (text.take 3).map Char.toUpper = ['U', 'T', 'C'] then do
      set (text.drop 3)
      pure 0
    else offset (modify fun text => text.dropWhile fun c => c = ':' || isBlank c)
  skipBlanks
  unless (← get).isEmpty do throw .tooLong
  let date ← orOutOfRange (Date.mk year month day).day?
  finish date hour minute second nanos offset

end Reader

def readStrict (text : List Char) : Except ReadFault Instant :=
  (Reader.strict text).map Prod.fst

def readLoose? (text : List Char) : Option Instant :=
  match Reader.loose text with
  | .ok (t, _) => some t
  | .error _ => none

end Instant

end SeriesQuery
