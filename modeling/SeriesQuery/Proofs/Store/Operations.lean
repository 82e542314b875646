import Mathlib.Logic.Function.Basic
import SeriesQuery.Store.Basic

/-!
# Operations on a store

Whatever changes a store, as operations that can follow each other in any
number. `Store.Performs` says all that one of them can do: it binds a free name
to a new series, frees a name, or writes the series of a name. That the names of
a store refer to series of their own follows from it, and so does that an
operation keeps to the series of its name.
-/

namespace SeriesQuery

inductive Operation where
  | create (field : Field)
  | drop (name : String)
  | insert (name : String) (sample : Sample Value)
  | insertBatch (name : String) (samples : List (Sample Value))
  | insertJson (name : String) (timestamp : Instant) (tree : Json)

def Operation.name : Operation → String
  | .create field => field.urn
  | .drop name | .insert name _ | .insertBatch name _ | .insertJson name _ _ => name

/-- The state after some operations, each of which may answer a number, with
their replies. One that fails leaves the state as it is. -/
def Operation.runAll (perform : σ → Operation → Except StorageError (σ × Nat)) (state : σ) :
    List Operation → σ × List (Except StorageError Nat)
  | [] => (state, [])
  | operation :: rest =>
    match perform state operation with
    | .ok (next, count) =>
      let (last, replies) := runAll perform next rest
      (last, .ok count :: replies)
    | .error e =>
      let (last, replies) := runAll perform state rest
      (last, .error e :: replies)

namespace Store

def perform (store : Store) : Operation → Except StorageError (Store × Nat)
  | .create field => return (← store.create field, 0)
  | .drop name => return (← store.drop name, 0)
  | .insert name sample => return (← store.insert name sample, 1)
  | .insertBatch name samples => store.insertBatch name samples
  | .insertJson name timestamp tree => return (← store.insertJson name timestamp tree, 1)

def series? (store : Store) (name : String) : Option Series :=
  (store.find? name).map store.read

def withSeries (store : Store) (field : Field) : Store where
  names := (field.urn, ⟨store.series.size, field⟩) :: store.names
  series := store.series.push (.empty field)

def withoutName (store : Store) (name : String) : Store :=
  { store with names := store.names.filter (·.1 ≠ name) }

/-- All that an operation can do where it succeeds: the series that its name then
has, and the store. -/
inductive Performs (store : Store) : Operation → Option Series → Store → Prop
  | create {field : Field} (hfree : store.find? field.urn = none) :
      Performs store (.create field) (some (.empty field)) (store.withSeries field)
  | drop {name : String} : Performs store (.drop name) none (store.withoutName name)
  | write {operation : Operation} {ref : SeriesRef} {series : Series}
      (hfind : store.find? operation.name = some ref) (hfield : series.field = ref.field) :
      Performs store operation (some series) (store.write ref series)

/-- The series of other names are as they were, and so is any that has lost its
name. -/
structure Untouched (name : String) (store next : Store) : Prop where
  named : ∀ other, other ≠ name → next.series? other = store.series? other
  unnamed : ∀ index, index < store.series.size →
    (∀ ref, store.find? name = some ref → ref.index ≠ index) →
      next.series[index]? = store.series[index]?

variable {store next : Store} {ref : SeriesRef} {series : Series} {field : Field}
  {name other : String} {operation : Operation}

theorem require_of_find (h : store.find? name = some ref) : store.require name = .ok ref := by
  simp [require, h]

theorem require_of_free (h : store.find? name = none) :
    store.require name = .error (.seriesNotFound name) := by
  simp [require, h]

theorem insert_of_find {sample : Sample Value} (h : store.find? name = some ref) :
    store.insert name sample =
      match (store.read ref).insert sample with
      | .ok series => .ok (store.write ref series)
      | .error e => .error (.invalidSample name e) := by
  rw [insert, require_of_find h]
  rfl

theorem insertJson_of_find {timestamp : Instant} {tree : Json}
    (h : store.find? name = some ref) :
    store.insertJson name timestamp tree =
      match ref.field.dataType.ofJson tree with
      | .ok value => store.insert name ⟨timestamp, value⟩
      | .error e => .error (.invalidSample name e) := by
  rw [insertJson, require_of_find h]
  rfl

-- ---------------------------------------------------------------------------
-- Names
-- ---------------------------------------------------------------------------

theorem find?_withSeries : (store.withSeries field).find? name =
    if name = field.urn then some ⟨store.series.size, field⟩ else store.find? name := by
  simp only [find?, withSeries, List.lookup_cons]
  split <;> simp_all

theorem find?_withoutName :
    (store.withoutName name).find? other = if other = name then none else store.find? other := by
  obtain ⟨names, kept⟩ := store
  simp only [find?, withoutName]
  induction names with
  | nil => simp
  | cons entry names ih =>
    simp only [List.filter_cons]
    grind

@[simp] theorem find?_write : (store.write ref series).find? = store.find? := rfl

/-- Every name refers to a series of its own, and is the URN of its field. -/
structure WellFormed (store : Store) : Prop where
  urn : ∀ {name ref}, store.find? name = some ref → ref.field.urn = name
  stored : ∀ {name ref}, store.find? name = some ref →
    ∃ series, store.series[ref.index]? = some series ∧ series.field = ref.field
  distinct : ∀ {a b : String} {r s : SeriesRef}, store.find? a = some r → store.find? b = some s →
    r.index = s.index → a = b

theorem wellFormed_empty : empty.WellFormed where
  urn h := nomatch h
  stored h := nomatch h
  distinct h := nomatch h

namespace WellFormed

theorem index_lt (h : store.WellFormed) (hfind : store.find? name = some ref) :
    ref.index < store.series.size := by
  obtain ⟨series, hseries, -⟩ := h.stored hfind
  exact (Array.getElem?_eq_some_iff.mp hseries).1

theorem read_field (h : store.WellFormed) (hfind : store.find? name = some ref) :
    (store.read ref).field = ref.field := by
  obtain ⟨series, hseries, hfield⟩ := h.stored hfind
  simp [read, hseries, hfield]

theorem withSeries (h : store.WellFormed) : (store.withSeries field).WellFormed where
  urn {name ref} hfind := by
    rw [find?_withSeries] at hfind
    split at hfind
    · cases hfind; exact Eq.symm ‹_›
    · exact h.urn hfind
  stored {name ref} hfind := by
    rw [find?_withSeries] at hfind
    split at hfind
    · cases hfind; exact ⟨.empty field, by simp [Store.withSeries], rfl⟩
    · obtain ⟨series, hseries, hfield⟩ := h.stored hfind
      refine ⟨series, ?_, hfield⟩
      simp [Store.withSeries, Array.getElem?_push, (Nat.ne_of_lt (h.index_lt hfind)), hseries]
  distinct {a b r s} ha hb hindex := by
    rw [find?_withSeries] at ha hb
    split at ha <;> split at hb
    · simp_all
    · cases ha; exact absurd hindex (Nat.ne_of_gt (h.index_lt hb))
    · cases hb; exact absurd hindex (Nat.ne_of_lt (h.index_lt ha))
    · exact h.distinct ha hb hindex

theorem withoutName (h : store.WellFormed) : (store.withoutName name).WellFormed := by
  have hkept : ∀ {other ref}, (store.withoutName name).find? other = some ref →
      store.find? other = some ref := by
    intro other ref hfind
    rw [find?_withoutName] at hfind
    split at hfind
    · cases hfind
    · exact hfind
  exact ⟨fun hfind => h.urn (hkept hfind), fun hfind => h.stored (hkept hfind),
    fun ha hb => h.distinct (hkept ha) (hkept hb)⟩

theorem write (h : store.WellFormed) (hfind : store.find? name = some ref)
    (hfield : series.field = ref.field) : (store.write ref series).WellFormed where
  urn := h.urn
  stored {other r} hr := by
    by_cases hindex : ref.index = r.index
    · -- no two names share a series, so it is the one of this name
      have hname : name = other := h.distinct hfind hr hindex
      have href : ref = r := by subst hname; exact Option.some.inj (hfind.symm.trans hr)
      subst href
      exact ⟨series, by simp [Store.write, h.index_lt hfind], hfield⟩
    · obtain ⟨kept, hkept, hf⟩ := h.stored hr
      exact ⟨kept, by simp [Store.write, hindex, hkept], hf⟩
  distinct := h.distinct

end WellFormed

-- ---------------------------------------------------------------------------
-- What is stored
-- ---------------------------------------------------------------------------

theorem series?_withSeries (h : store.WellFormed) :
    (store.withSeries field).series? =
      Function.update store.series? field.urn (some (.empty field)) := by
  funext other
  rw [series?, find?_withSeries, Function.update_apply]
  split
  · simp [read, withSeries]
  · rw [series?]
    cases hfind : store.find? other with
    | none => rfl
    | some ref =>
      simp [read, withSeries, Array.getElem?_push, (Nat.ne_of_lt (h.index_lt hfind))]

theorem series?_withoutName :
    (store.withoutName name).series? = Function.update store.series? name none := by
  funext other
  rw [series?, find?_withoutName, Function.update_apply]
  split
  · rfl
  · rfl

theorem series?_write (h : store.WellFormed) (hfind : store.find? name = some ref) :
    (store.write ref series).series? = Function.update store.series? name (some series) := by
  funext other
  rw [series?, find?_write, Function.update_apply]
  split
  · next hname =>
    subst hname
    simp [hfind, read, write, h.index_lt hfind]
  · next hname =>
    rw [series?]
    cases hother : store.find? other with
    | none => rfl
    | some r =>
      have hindex : ref.index ≠ r.index := fun hi => hname (h.distinct hfind hother hi).symm
      simp [read, write, hindex]

-- ---------------------------------------------------------------------------
-- What an operation does
-- ---------------------------------------------------------------------------

namespace Performs

variable {after : Option Series}

theorem wellFormed (h : Performs store operation after next) (hw : store.WellFormed) :
    next.WellFormed := by
  cases h with
  | create _ => exact hw.withSeries
  | drop => exact hw.withoutName
  | write hfind hfield => exact hw.write hfind hfield

theorem series? (h : Performs store operation after next) (hw : store.WellFormed) :
    next.series? = Function.update store.series? operation.name after := by
  cases h with
  | create _ => exact series?_withSeries hw
  | drop => exact series?_withoutName
  | write hfind _ => exact series?_write hw hfind

theorem untouched (h : Performs store operation after next) (hw : store.WellFormed) :
    Untouched operation.name store next where
  named other hother := by
    rw [h.series? hw]
    exact Function.update_of_ne hother ..
  unnamed index hlt hindex := by
    cases h with
    | create _ => simp [withSeries, Array.getElem?_push, Nat.ne_of_lt hlt]
    | drop => rfl
    | write hfind _ => simp [Store.write, hindex _ hfind]

end Performs

end Store

end SeriesQuery
