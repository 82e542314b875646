import SeriesQuery.Json.Reader

/-!
# Passing over JSON

A value that nobody asks for is passed over: only its shape counts. A number may be of any size, a
string may hold lone surrogates, and arrays and objects may be nested in any depth. What is known
of an object can so be read without a tree of the rest.
-/

namespace SeriesQuery.Json

def skipChars : List Char → Option (List Char)
  | [] => none
  | '"' :: rest => some rest
  | '\\' :: 'u' :: a :: b :: c :: d :: rest => do
    let _unit ← hex? a b c d
    skipChars rest
  | '\\' :: c :: rest => do
    let _char ← shortEscape? c
    skipChars rest
  | c :: rest => if c.toNat < 0x20 then none else skipChars rest

def skipFraction (text : List Char) : Option (List Char) :=
  match splitDigits text with
  | ([], _) => none
  | (_, rest) => some rest

def skipUnsigned (text : List Char) : Option (List Char) := do
  let rest ← match splitDigits text with
    | ([], _) => none
    | (0 :: _ :: _, _) => none
    | (_, '.' :: tail) => skipFraction tail
    | (_, rest) => some rest
  match rest with
  | 'e' :: tail => (readExponent tail).map (·.2)
  | 'E' :: tail => (readExponent tail).map (·.2)
  | rest => some rest

/-- What is open around a value. -/
inductive Enclosure where
  | array
  | object
deriving DecidableEq, Repr

/-- A place in a text that is passed over, with what is open around it, the innermost first. -/
inductive Passage where
  | before (enclosures : List Enclosure) (text : List Char)
  | after (enclosures : List Enclosure) (text : List Char)

namespace Passage

def enterEntry (enclosures : List Enclosure) (text : List Char) : Option Passage := do
  match skipSpace text with
  | '"' :: rest =>
    match skipSpace (← skipChars rest) with
    | ':' :: rest => return .before (.object :: enclosures) rest
    | _ => none
  | _ => none

def enter (enclosures : List Enclosure) (text : List Char) : Option Passage :=
  match skipSpace text with
  | 'n' :: 'u' :: 'l' :: 'l' :: rest => some (.after enclosures rest)
  | 't' :: 'r' :: 'u' :: 'e' :: rest => some (.after enclosures rest)
  | 'f' :: 'a' :: 'l' :: 's' :: 'e' :: rest => some (.after enclosures rest)
  | '"' :: rest => (skipChars rest).map (.after enclosures)
  | '[' :: rest =>
    match skipSpace rest with
    | ']' :: rest => some (.after enclosures rest)
    | rest => some (.before (.array :: enclosures) rest)
  | '{' :: rest =>
    match skipSpace rest with
    | '}' :: rest => some (.after enclosures rest)
    | rest => enterEntry enclosures rest
  | '-' :: rest => (skipUnsigned rest).map (.after enclosures)
  | rest => (skipUnsigned rest).map (.after enclosures)

def leave (innermost : Enclosure) (outer : List Enclosure) (text : List Char) : Option Passage :=
  match innermost, skipSpace text with
  | .array, ',' :: rest => some (.before (.array :: outer) rest)
  | .array, ']' :: rest => some (.after outer rest)
  | .object, ',' :: rest => enterEntry outer rest
  | .object, '}' :: rest => some (.after outer rest)
  | _, _ => none

/-- What follows once nothing is open any more. Each step consumes a character. -/
def finish : (fuel : Nat) → Passage → Option (List Char)
  | 0, _ => none
  | fuel + 1, .before enclosures text => do finish fuel (← enter enclosures text)
  | _ + 1, .after [] text => some text
  | fuel + 1, .after (innermost :: outer) text => do finish fuel (← leave innermost outer text)

end Passage

def skipValue (fuel : Nat) (text : List Char) : Option (List Char) :=
  (Passage.before [] text).finish fuel

def readKnownEntries (known : List String) :
    (fuel : Nat) → List Char → Option (List (String × Json) × List Char)
  | 0, _ => none
  | fuel + 1, text => do
    match skipSpace text with
    | '"' :: rest =>
      let (chars, rest) ← readChars [] rest
      let key := String.ofList chars
      match skipSpace rest with
      | ':' :: rest =>
        let (entry, rest) : List (String × Json) × List Char ←
          if key ∈ known then do
            let (value, rest) ← readValue fuel (depthLimit - 1) rest
            pure ([(key, value)], rest)
          else do pure ([], ← skipValue fuel rest)
        match skipSpace rest with
        | ',' :: rest =>
          let (entries, rest) ← readKnownEntries known fuel rest
          return (entry ++ entries, rest)
        | '}' :: rest => return (entry, rest)
        | _ => none
      | _ => none
    | _ => none

def readKnown? (known : List String) (text : String) : Option (List (String × Json)) := do
  let chars := text.toList
  match skipSpace chars with
  | '{' :: rest =>
    let (entries, rest) ← match skipSpace rest with
      | '}' :: rest => some ([], rest)
      | rest => readKnownEntries known (stepLimit chars) rest
    if skipSpace rest = [] then return entries else none
  | _ => none

end SeriesQuery.Json
