import SeriesQuery.Store.Basic

/-!
# Calls on a store in place

The operations on a store as steps that change it where it is. Nothing takes a step back: a call
that fails behind a change leaves the change.
-/

namespace SeriesQuery.Store

/-- A call on a store in place. A step that fails ends the call; what the steps before it changed
stays changed. -/
abbrev Call (ε α : Type) := ExceptT ε (StateM Store) α

namespace Call

variable {ε δ α β : Type} {store : Store}

/-- How a call on a store ends, and the store after it. -/
def madeOn (call : Call ε α) (store : Store) : Except ε α × Store :=
  call.run.run store

@[simp] theorem madeOn_pure (a : α) : (pure a : Call ε α).madeOn store = (.ok a, store) := rfl

@[simp] theorem madeOn_throw (e : ε) : (throw e : Call ε α).madeOn store = (.error e, store) := rfl

@[simp] theorem madeOn_get : (get : Call ε Store).madeOn store = (.ok store, store) := rfl

@[simp] theorem madeOn_modify (f : Store → Store) :
    (modify f : Call ε Unit).madeOn store = (.ok (), f store) := rfl

theorem madeOn_bind (call : Call ε α) (rest : α → Call ε β) :
    (call >>= rest).madeOn store = match call.madeOn store with
      | (.ok a, next) => (rest a).madeOn next
      | (.error e, next) => (.error e, next) := by
  unfold madeOn
  rw [ExceptT.run_bind, StateT.run_bind]
  rcases call.run.run store with ⟨e | a, next⟩ <;> rfl

theorem madeOn_adapt (f : ε → δ) (call : Call ε α) :
    madeOn (call.adapt f) store = match call.madeOn store with
      | (.ok a, next) => (.ok a, next)
      | (.error e, next) => (.error (f e), next) := by
  unfold madeOn
  rw [ExceptT.run_adapt, StateT.run_map]
  rcases call.run.run store with ⟨e | a, next⟩ <;> rfl

def require (name : String) : Call StorageError SeriesRef := do
  match (← get).find? name with
  | some ref => return ref
  | none => throw (.seriesNotFound name)

/-- Makes a series that no name refers to yet. -/
def allocate (field : Field) : Call StorageError SeriesRef := do
  let ref : SeriesRef := ⟨(← get).series.size, field⟩
  modify fun store => { store with series := store.series.push (.empty field) }
  return ref

def create (field : Field) : Call StorageError SeriesRef := do
  match (← get).find? field.urn with
  | some _ => throw (.seriesExists field.urn)
  | none =>
    let ref ← allocate field
    modify fun store => { store with names := (field.urn, ref) :: store.names }
    return ref

def drop (name : String) : Call StorageError Unit := do
  let removed := (← get).find? name
  modify fun store => { store with names := store.names.filter (·.1 ≠ name) }
  if removed.isNone then throw (.seriesNotFound name)

def insertInto (ref : SeriesRef) (sample : Sample Value) : Call EvalError Unit := do
  match ((← get).read ref).insert sample with
  | .ok series => modify (·.write ref series)
  | .error e => throw e

def insert (name : String) (sample : Sample Value) : Call StorageError Unit := do
  let ref ← require name
  (insertInto ref sample).adapt (.invalidSample name)

def countInserted (ref : SeriesRef) (inserted : Nat) (sample : Sample Value) :
    StateM Store Nat := do
  match ← (insertInto ref sample).run with
  | .ok () => return inserted + 1
  | .error _ => return inserted

def insertBatch (name : String) (samples : List (Sample Value)) : Call StorageError Nat := do
  let ref ← require name
  liftM (samples.foldlM (countInserted ref) 0)

def insertJson (name : String) (timestamp : Instant) (tree : Json) : Call StorageError Unit := do
  let ref ← require name
  match ref.field.dataType.ofJson tree with
  | .ok value => (insertInto ref ⟨timestamp, value⟩).adapt (.invalidSample name)
  | .error e => throw (.invalidSample name e)

def source (name : String) : Call StorageError (SeriesRef × TimeRange) := do
  return (← require name, .all)

end Call

end SeriesQuery.Store
