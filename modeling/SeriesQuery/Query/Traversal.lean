import SeriesQuery.Rowset.Basic

/-!
# Traversals

A running query: its fields, what is left of its stream, and whether it has been cancelled.
-/

namespace SeriesQuery

structure Traversal where
  fields : List Field
  rows : Stream (Sample Row)
  cancelled : Bool

namespace Traversal

def start (rowset : Rowset) : Traversal := ⟨rowset.fields, rowset.rows, false⟩

/-- The answer to a pull; nothing is the end. -/
abbrev Answer := Option (Except QueryError (Sample Row))

def pull (traversal : Traversal) : Answer × Traversal :=
  match traversal.rows traversal.cancelled with
  | .stop => (none, { traversal with rows := Stream.empty })
  | .item answer next => (some answer, { traversal with rows := next })

def cancel (traversal : Traversal) : Traversal :=
  { traversal with cancelled := true }

def pulls : Nat → Traversal → List Answer × Traversal
  | 0, traversal => ([], traversal)
  | count + 1, traversal =>
    let (answer, traversal) := traversal.pull
    let (answers, traversal) := pulls count traversal
    (answer :: answers, traversal)

def drain (traversal : Traversal) : List (Sample Row) × Option QueryError × Traversal :=
  let (rows, error, rest) := (traversal.rows traversal.cancelled).drain traversal.cancelled
  (rows, error, { traversal with rows := rest })

def check (traversal : Traversal) : Except QueryError Unit :=
  if traversal.cancelled then .error .cancelled else .ok ()

end Traversal

end SeriesQuery
