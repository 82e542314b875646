import SeriesQuery.Document.Scalar
import SeriesQuery.Json.Printer
import SeriesQuery.Store.Series

/-!
# Stores

A store holds series under the URNs of their fields. A series has an identity of its own: whoever
refers to it sees later insertions, and keeps it when its name is dropped.
-/

namespace SeriesQuery

/-- A series of a store, whatever is stored under its name by now. -/
structure SeriesRef where
  index : Nat
  field : Field

structure Store where
  names : List (String × SeriesRef)
  /-- Every series that was ever created. -/
  series : Array Series

def DataType.ofJson (type : DataType) (tree : Json) : Except EvalError Value :=
  match Value.decode tree with
  | some value => type.coerce value
  | none => .error (.castFailed tree.canonical.write .string .notScalar)

namespace Store

def empty : Store := ⟨[], #[]⟩

def find? (store : Store) (name : String) : Option SeriesRef :=
  store.names.lookup name

def require (store : Store) (name : String) : Except StorageError SeriesRef :=
  match store.find? name with
  | some ref => .ok ref
  | none => .error (.seriesNotFound name)

def read (store : Store) (ref : SeriesRef) : Series :=
  store.series[ref.index]?.getD (.empty ref.field)

def create (store : Store) (field : Field) : Except StorageError Store :=
  match store.find? field.urn with
  | some _ => .error (.seriesExists field.urn)
  | none => .ok {
      names := (field.urn, ⟨store.series.size, field⟩) :: store.names
      series := store.series.push (.empty field) }

def drop (store : Store) (name : String) : Except StorageError Store := do
  let _ref ← store.require name
  return { store with names := store.names.filter (·.1 ≠ name) }

def list (store : Store) : List String :=
  (store.names.map (·.1)).mergeSort

def write (store : Store) (ref : SeriesRef) (series : Series) : Store :=
  { store with series := store.series.setIfInBounds ref.index series }

def insert (store : Store) (name : String) (sample : Sample Value) : Except StorageError Store := do
  let ref ← store.require name
  match (store.read ref).insert sample with
  | .ok series => return store.write ref series
  | .error e => throw (.invalidSample name e)

def insertFitting : Series → List (Sample Value) → Series × Nat
  | series, [] => (series, 0)
  | series, sample :: rest =>
    match series.insert sample with
    | .ok series =>
      let (series, count) := insertFitting series rest
      (series, count + 1)
    | .error _ => insertFitting series rest

def insertBatch (store : Store) (name : String) (samples : List (Sample Value)) :
    Except StorageError (Store × Nat) := do
  let ref ← store.require name
  let (series, count) := insertFitting (store.read ref) samples
  return (store.write ref series, count)

def insertJson (store : Store) (name : String) (timestamp : Instant) (tree : Json) :
    Except StorageError Store := do
  let ref ← store.require name
  match ref.field.dataType.ofJson tree with
  | .ok value => store.insert name ⟨timestamp, value⟩
  | .error e => throw (.invalidSample name e)

end Store

end SeriesQuery
