import SeriesQuery.Json.Basic
import SeriesQuery.Value.Integer

/-!
# Objects of documents

How the keys of an object are looked up: a key that is known may stand in it once. Words stand for
the cases of an enumeration.
-/

namespace SeriesQuery.Document

variable {α : Type}

def required? (entries : List (String × α)) (key : String) : Option α :=
  match entries.filter (·.1 = key) with
  | [(_, value)] => some value
  | _ => none

def optional? (entries : List (String × α)) (key : String) : Option (Option α) :=
  match entries.filter (·.1 = key) with
  | [] => some none
  | [(_, value)] => some (some value)
  | _ => none

def entries? : Json → Option (List (String × Json))
  | .object entries => some entries
  | _ => none

def text? : Json → Option String
  | .string text => some text
  | _ => none

def truth? : Json → Option Bool
  | .bool value => some value
  | _ => none

def int64? : Json → Option Int64
  | .integer n => integer? n
  | _ => none

def int32? : Json → Option Int32
  | .integer n => if -2147483648 ≤ n ∧ n ≤ 2147483647 then some (Int32.ofInt n) else none
  | _ => none

/-- Where a tree stands: it is all of a text, or a part of an object that names its own case, as a
node does. The object is known in full before its parts are decoded, and they may be written more
freely. -/
inductive Place where
  | whole
  | part
deriving DecidableEq, Repr

/-- Whether a tree says nothing: null, and in a part also an object without entries. -/
def isNothing : Place → Json → Bool
  | _, .null => true
  | .part, .object [] => true
  | _, _ => false

/-- The case that a word stands for. A word may also be the only key of an object, with a tree
that says nothing. -/
def word? (place : Place) (cases : List α) (word : α → String) : Json → Option α
  | .string text => cases.find? (word · = text)
  | .object [(text, tree)] =>
    if isNothing place tree then cases.find? (word · = text) else none
  | _ => none

end SeriesQuery.Document
