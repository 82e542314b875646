import SeriesQuery.Proofs.Store.Operations
import SeriesQuery.Proofs.Store.StableSort

/-!
# A store is a map of sorted logs

A log keeps the samples of a series in the order in which they were accepted. The
operations on a store are easy to say of logs under names: an insertion appends
what fits the field, and nothing is ever moved. A store answers each operation as
the logs do, and holds the samples of every log in a stable sort by timestamp.
-/

namespace SeriesQuery

/-- The samples that a field has accepted, from the first to the last. -/
structure Log where
  field : Field
  accepted : List (Sample Value)

namespace Log

def empty (field : Field) : Log := ⟨field, []⟩

def append (log : Log) (samples : List (Sample Value)) : Log :=
  { log with accepted := log.accepted ++ samples }

def fitting (log : Log) (samples : List (Sample Value)) : List (Sample Value) :=
  samples.filter fun sample => (log.field.check sample.value).toBool

def insert (log : Log) (name : String) (sample : Sample Value) :
    Except StorageError (Option Log × Nat) :=
  match log.field.check sample.value with
  | .ok () => .ok (some (log.append [sample]), 1)
  | .error e => .error (.invalidSample name e)

end Log

def Operation.act : Operation → Option Log → Except StorageError (Option Log × Nat)
  | .create field, none => .ok (some (.empty field), 0)
  | .create field, some _ => .error (.seriesExists field.urn)
  | .drop name, none | .insert name _, none | .insertBatch name _, none
  | .insertJson name _ _, none => .error (.seriesNotFound name)
  | .drop _, some _ => .ok (none, 0)
  | .insert name sample, some log => log.insert name sample
  | .insertBatch _ samples, some log =>
    .ok (some (log.append (log.fitting samples)), (log.fitting samples).length)
  | .insertJson name timestamp tree, some log =>
    match log.field.dataType.ofJson tree with
    | .ok value => log.insert name ⟨timestamp, value⟩
    | .error e => .error (.invalidSample name e)

abbrev Logs := String → Option Log

namespace Logs

def empty : Logs := fun _ => none

def perform (logs : Logs) (operation : Operation) : Except StorageError (Logs × Nat) :=
  match operation.act (logs operation.name) with
  | .ok (log, count) => .ok (Function.update logs operation.name log, count)
  | .error e => .error e

end Logs

namespace Series

variable {series next : Series} {log : Log} {sample : Sample Value}

/-- A series keeps the samples of a log in a stable sort. -/
structure Keeps (series : Series) (log : Log) : Prop where
  field : series.field = log.field
  sorted : series.samples.toList = sortByTime log.accepted

theorem keeps_empty (field : Field) : (Series.empty field).Keeps (.empty field) where
  field := rfl
  sorted := by simp [Series.empty, Log.empty, sortByTime]

theorem Keeps.insert (h : series.Keeps log) (hfit : log.field.check sample.value = .ok ()) :
    ∃ next, series.insert sample = .ok next ∧ next.Keeps (log.append [sample]) := by
  unfold Series.insert
  split
  · next e he => simp [h.field, hfit] at he
  · exact ⟨_, rfl, h.field, toList_withSample_eq_sort h.sorted⟩

theorem Keeps.insert_error (h : series.Keeps log) (hfit : log.field.check sample.value = .error e) :
    series.insert sample = .error e := by
  unfold Series.insert
  split
  · next e' he => rw [h.field, hfit] at he; cases he; rfl
  · next hok => simp [h.field, hfit] at hok

theorem Keeps.insertFitting (h : series.Keeps log) (samples : List (Sample Value)) :
    (Store.insertFitting series samples).1.Keeps (log.append (log.fitting samples)) ∧
      (Store.insertFitting series samples).2 = (log.fitting samples).length := by
  induction samples generalizing series log with
  | nil => exact ⟨by simpa [Store.insertFitting, Log.append, Log.fitting] using h, rfl⟩
  | cons sample samples ih =>
    -- the log grows with the series, so the induction is over all series that keep one
    cases hfit : log.field.check sample.value with
    | error e =>
      rw [Store.insertFitting, h.insert_error hfit]
      simpa [Log.fitting, hfit, Except.toBool] using ih h
    | ok =>
      obtain ⟨next, hnext, hkeeps⟩ := h.insert hfit
      rw [Store.insertFitting, hnext]
      simpa [Log.fitting, Log.append, hfit, Except.toBool] using ih hkeeps

end Series

namespace Store

/-- A store with well-formed names that keeps every log in a stable sort. -/
structure Refines (store : Store) (logs : Logs) : Prop extends store.WellFormed where
  keeps : ∀ name, Option.Rel Series.Keeps (store.series? name) (logs name)

/-- The store and the log of the name answer an operation alike, and the series
that the name then has keeps its log. -/
inductive Agrees (store : Store) (operation : Operation) :
    Except StorageError (Store × Nat) → Except StorageError (Option Log × Nat) → Prop
  | ok {next : Store} {after : Option Series} {log : Option Log} {count : Nat}
      (performs : Performs store operation after next) (keeps : Option.Rel Series.Keeps after log) :
      Agrees store operation (.ok (next, count)) (.ok (log, count))
  | error {e : StorageError} : Agrees store operation (.error e) (.error e)

variable {store next : Store} {logs : Logs} {log : Option Log} {ref : SeriesRef}
  {series : Series} {operation : Operation} {name : String}

-- ---------------------------------------------------------------------------
-- One operation
-- ---------------------------------------------------------------------------

theorem WellFormed.find (hw : store.WellFormed)
    (h : Option.Rel Series.Keeps (store.series? name) log) :
    (store.find? name = none ∧ log = none) ∨ ∃ ref kept, store.find? name = some ref ∧
      log = some kept ∧ (store.read ref).Keeps kept ∧ ref.field = kept.field := by
  rw [series?] at h
  cases hfind : store.find? name with
  | none =>
    rw [hfind] at h
    cases h with
    | none => exact .inl ⟨rfl, rfl⟩
  | some ref =>
    rw [hfind] at h
    cases h with
    | some hread =>
      exact .inr ⟨ref, _, rfl, rfl, hread, (hw.read_field hfind).symm.trans hread.field⟩

theorem agrees_create {field : Field} (hw : store.WellFormed)
    (h : Option.Rel Series.Keeps (store.series? field.urn) log) :
    Agrees store (.create field) (store.perform (.create field))
      ((Operation.create field).act log) := by
  obtain ⟨hfree, rfl⟩ | ⟨ref, kept, hfind, rfl, -, -⟩ := hw.find h
  · rw [perform, create, hfree]
    exact .ok (.create hfree) (.some (Series.keeps_empty field))
  · rw [perform, create, hfind]
    exact .error

theorem agrees_drop (hw : store.WellFormed)
    (h : Option.Rel Series.Keeps (store.series? name) log) :
    Agrees store (.drop name) (store.perform (.drop name)) ((Operation.drop name).act log) := by
  obtain ⟨hfree, rfl⟩ | ⟨ref, kept, hfind, rfl, -, -⟩ := hw.find h
  · rw [perform, drop, require_of_free hfree]
    exact .error
  · rw [perform, drop, require_of_find hfind]
    exact .ok .drop .none

theorem agrees_insert_of_find {kept : Log} {sample : Sample Value} (hname : operation.name = name)
    (hfind : store.find? name = some ref) (hread : (store.read ref).Keeps kept)
    (hfield : ref.field = kept.field) :
    Agrees store operation (return (← store.insert name sample, 1)) (kept.insert name sample) := by
  rw [insert_of_find hfind, Log.insert]
  cases hfit : kept.field.check sample.value with
  | ok =>
    obtain ⟨next, hnext, hkeeps⟩ := hread.insert hfit
    rw [hnext]
    exact .ok (.write (hname ▸ hfind) (hkeeps.field.trans hfield.symm)) (.some hkeeps)
  | error e =>
    rw [hread.insert_error hfit]
    exact .error

theorem agrees_insert {sample : Sample Value} (hw : store.WellFormed)
    (h : Option.Rel Series.Keeps (store.series? name) log) :
    Agrees store (.insert name sample) (store.perform (.insert name sample))
      ((Operation.insert name sample).act log) := by
  obtain ⟨hfree, rfl⟩ | ⟨ref, kept, hfind, rfl, hread, hfield⟩ := hw.find h
  · rw [perform, insert, require_of_free hfree]
    exact .error
  · exact agrees_insert_of_find rfl hfind hread hfield

theorem agrees_insertBatch {samples : List (Sample Value)} (hw : store.WellFormed)
    (h : Option.Rel Series.Keeps (store.series? name) log) :
    Agrees store (.insertBatch name samples) (store.perform (.insertBatch name samples))
      ((Operation.insertBatch name samples).act log) := by
  obtain ⟨hfree, rfl⟩ | ⟨ref, kept, hfind, rfl, hread, hfield⟩ := hw.find h
  · rw [perform, insertBatch, require_of_free hfree]
    exact .error
  · obtain ⟨hkeeps, hcount⟩ := hread.insertFitting samples
    rw [perform, insertBatch, require_of_find hfind, Operation.act, ← hcount]
    exact .ok (.write hfind (hkeeps.field.trans hfield.symm)) (.some hkeeps)

theorem agrees_insertJson {timestamp : Instant} {tree : Json} (hw : store.WellFormed)
    (h : Option.Rel Series.Keeps (store.series? name) log) :
    Agrees store (.insertJson name timestamp tree) (store.perform (.insertJson name timestamp tree))
      ((Operation.insertJson name timestamp tree).act log) := by
  obtain ⟨hfree, rfl⟩ | ⟨ref, kept, hfind, rfl, hread, hfield⟩ := hw.find h
  · rw [perform, insertJson, require_of_free hfree]
    exact .error
  · rw [perform, insertJson_of_find hfind, Operation.act, ← hfield]
    cases ref.field.dataType.ofJson tree with
    | ok value => exact agrees_insert_of_find rfl hfind hread hfield
    | error e => exact .error

theorem agrees (hw : store.WellFormed) (operation : Operation)
    (h : Option.Rel Series.Keeps (store.series? operation.name) log) :
    Agrees store operation (store.perform operation) (operation.act log) := by
  cases operation with
  | create field => exact agrees_create hw h
  | drop name => exact agrees_drop hw h
  | insert name sample => exact agrees_insert hw h
  | insertBatch name samples => exact agrees_insertBatch hw h
  | insertJson name timestamp tree => exact agrees_insertJson hw h

-- ---------------------------------------------------------------------------
-- Any number of operations
-- ---------------------------------------------------------------------------

namespace Refines

theorem empty : Store.empty.Refines .empty := ⟨wellFormed_empty, fun _ => .none⟩

theorem performs (h : store.Refines logs) {after : Option Series}
    (hp : Performs store operation after next) (hkeeps : Option.Rel Series.Keeps after log) :
    next.Refines (Function.update logs operation.name log) where
  toWellFormed := hp.wellFormed h.toWellFormed
  keeps name := by
    rw [hp.series? h.toWellFormed, Function.update_apply, Function.update_apply]
    split
    · exact hkeeps
    · exact h.keeps name

theorem runAll (h : store.Refines logs) (operations : List Operation) :
    (Operation.runAll Store.perform store operations).2 =
        (Operation.runAll Logs.perform logs operations).2 ∧
      (Operation.runAll Store.perform store operations).1.Refines
        (Operation.runAll Logs.perform logs operations).1 := by
  induction operations generalizing store logs with
  | nil => exact ⟨rfl, h⟩
  | cons operation operations ih =>
    have hstep := agrees h.toWellFormed operation (h.keeps operation.name)
    simp only [Operation.runAll, Logs.perform]
    generalize store.perform operation = reply at hstep ⊢
    generalize operation.act (logs operation.name) = expected at hstep ⊢
    cases hstep with
    | ok hperforms hkeeps =>
      obtain ⟨hreplies, hlast⟩ := ih (h.performs hperforms hkeeps)
      exact ⟨congrArg (_ :: ·) hreplies, hlast⟩
    | error =>
      obtain ⟨hreplies, hlast⟩ := ih h
      exact ⟨congrArg (_ :: ·) hreplies, hlast⟩

theorem named (h : store.Refines logs) (name : String) :
    Option.Rel (fun series log =>
        series.field = log.field ∧ series.field.urn = name ∧
        series.samples.toList = sortByTime log.accepted ∧
        (∀ t, samplesAt t series.samples.toList = samplesAt t log.accepted) ∧
        ∀ sample ∈ series.samples.toList, series.field.check sample.value = .ok ())
      (store.series? name) (logs name) := by
  obtain ⟨hfree, hnone⟩ | ⟨ref, log, hfind, hsome, hread, -⟩ := h.find (h.keeps name)
  · rw [series?, hfree, hnone]
    exact .none
  · rw [series?, hfind, hsome]
    refine .some ⟨hread.field, ?_, hread.sorted, fun t => ?_, (store.read ref).conforming⟩
    · rw [h.read_field hfind, h.urn hfind]
    · rw [hread.sorted, samplesAt_sortByTime]

theorem performs_of_ok (h : store.Refines logs)
    (hok : store.perform operation = .ok (next, count)) :
    ∃ after later, Performs store operation after next ∧ next.Refines later := by
  have hstep := agrees h.toWellFormed operation (h.keeps operation.name)
  rw [hok] at hstep
  generalize operation.act (logs operation.name) = expected at hstep
  cases hstep with
  | ok hperforms hkeeps => exact ⟨_, _, hperforms, h.performs hperforms hkeeps⟩

theorem untouched (h : store.Refines logs) (hok : store.perform operation = .ok (next, count)) :
    Untouched operation.name store next := by
  obtain ⟨_, _, hperforms, -⟩ := h.performs_of_ok hok
  exact hperforms.untouched h.toWellFormed

end Refines

/-- However a store comes about from an empty one, it answers as the logs under
its names do. A name in use is the URN of the field of its series, whose samples
are the accepted ones in a stable sort, all of which the field accepts. One more
operation leaves all series but that of its name as they are. -/
theorem runAll_refines_logs (operations : List Operation) :
    ∃ store logs replies,
      Operation.runAll Store.perform .empty operations = (store, replies) ∧
      Operation.runAll Logs.perform .empty operations = (logs, replies) ∧
      (∀ name, Option.Rel (fun series log =>
          series.field = log.field ∧ series.field.urn = name ∧
          series.samples.toList = sortByTime log.accepted ∧
          (∀ t, samplesAt t series.samples.toList = samplesAt t log.accepted) ∧
          ∀ sample ∈ series.samples.toList, series.field.check sample.value = .ok ())
        (store.series? name) (logs name)) ∧
      ∀ operation next count, store.perform operation = .ok (next, count) →
        Untouched operation.name store next := by
  obtain ⟨hreplies, hrefines⟩ := Refines.empty.runAll operations
  exact ⟨_, _, _, rfl, Prod.ext rfl hreplies.symm, hrefines.named,
    fun _ _ _ hok => hrefines.untouched hok⟩

def lateInserts : List Operation :=
  [.create (.plain "cpu" .integer true),
    .insert "cpu" ⟨.ofNanos 30, .integer 3⟩,
    .insertBatch "cpu" [⟨.ofNanos 10, .integer 1⟩,
      ⟨.ofNanos 20, .integer 2⟩, ⟨.ofNanos 20, .null⟩],
    .insertJson "cpu" (.ofNanos 20) (.integer 4),
    .drop "mem"]

theorem lateInserts_sorted :
    ∃ store series, Operation.runAll Store.perform .empty lateInserts =
        (store, [.ok 0, .ok 1, .ok 2, .ok 1, .error (.seriesNotFound "mem")]) ∧
      store.series? "cpu" = some series ∧
      series.samples.toList.map (fun sample => (sample.timestamp.nanos, sample.value)) =
        [(10, .integer 1), (20, .integer 2), (20, .integer 4), (30, .integer 3)] ∧
      ∀ next count, store.perform (.create (.plain "mem" .integer true)) = .ok (next, count) →
        next.series? "cpu" = some series := by
  obtain ⟨store, logs, replies, hstore, hlogs, hnamed, huntouched⟩ :=
    runAll_refines_logs lateInserts
  have hreplies : [.ok 0, .ok 1, .ok 2, .ok 1, .error (.seriesNotFound "mem")] = replies :=
    congrArg Prod.snd hlogs
  have hlog : some ⟨.plain "cpu" .integer true,
      [⟨.ofNanos 30, .integer 3⟩, ⟨.ofNanos 10, .integer 1⟩,
        ⟨.ofNanos 20, .integer 2⟩, ⟨.ofNanos 20, .integer 4⟩]⟩ =
      logs "cpu" :=
    congrFun (congrArg Prod.fst hlogs) "cpu"
  have hcpu := hnamed "cpu"
  rw [← hlog] at hcpu
  generalize hseries : store.series? "cpu" = found at hcpu
  cases hcpu with
  | @some series _ hkept =>
    refine ⟨store, series, hreplies ▸ hstore, hseries, ?_, fun next count hok => ?_⟩
    · rw [hkept.2.2.1]
      simp [sortByTime, List.mergeSort, List.MergeSort.Internal.splitInTwo, Instant.le_def,
        Instant.place, Instant.ofNanos, Instant.nanos]
    · exact ((huntouched _ next count hok).named "cpu" (by decide)).trans hseries

end Store

end SeriesQuery
