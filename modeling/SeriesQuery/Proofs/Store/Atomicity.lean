import SeriesQuery.Proofs.Store.Logs
import SeriesQuery.Store.Calls

/-!
# Calls that fail leave no trace

A call changes a store step by step, and no step is taken back. Still each call
does what its operation does on whole stores, and where that fails the store is
what it was: a call that writes has nothing left that can fail, and the one that
frees a name before it knows whether that was in use frees nothing if it was not.
A batch is therefore the insertions of its samples one by one, those that fail
included.
-/

namespace SeriesQuery

def Operation.call : Operation → Store.Call StorageError Nat
  | .create field => do
    let _ref ← Store.Call.create field
    return 0
  | .drop name => do
    Store.Call.drop name
    return 0
  | .insert name sample => do
    Store.Call.insert name sample
    return 1
  | .insertBatch name samples => Store.Call.insertBatch name samples
  | .insertJson name timestamp tree => do
    Store.Call.insertJson name timestamp tree
    return 1

/-- The store after some calls, whatever each of them ends with, and how they end. -/
def Operation.callAll (store : Store) :
    List Operation → Store × List (Except StorageError Nat)
  | [] => (store, [])
  | operation :: rest =>
    let (reply, next) := operation.call.madeOn store
    let (last, replies) := callAll next rest
    (last, reply :: replies)

variable {store next : Store} {logs : Logs} {ref : SeriesRef} {series : Series} {name : String}
  {sample : Sample Value} {samples : List (Sample Value)}

-- ---------------------------------------------------------------------------
-- One series
-- ---------------------------------------------------------------------------

namespace Series

variable {next : Series}

theorem size_of_insert (h : series.insert sample = .ok next) :
    next.samples.size = series.samples.size + 1 := by
  unfold insert at h
  split at h
  · cases h
  · cases h
    have hlength := congrArg List.length (series.toList_withSample sample)
    have hwhole := congrArg List.length
      (List.take_append_drop (series.placeOf sample.timestamp) series.samples.toList)
    simp only [List.length_append, List.length_cons, Array.length_toList] at hlength hwhole
    exact hlength.trans (by omega)

end Series

namespace Store

theorem size_insertFitting (series : Series) (samples : List (Sample Value)) :
    (insertFitting series samples).1.samples.size =
      series.samples.size + (insertFitting series samples).2 := by
  fun_induction insertFitting series samples with
  | case1 => rfl
  | case2 series sample rest next hnext last count hlast ih =>
    rw [hlast] at ih
    have hsize := Series.size_of_insert hnext
    simp only at ih ⊢
    omega
  | case3 series sample rest e he ih => exact ih

@[simp] theorem write_write {other : Series} :
    (store.write ref series).write ref other = store.write ref other := by
  simp [write]

@[simp] theorem write_read : store.write ref (store.read ref) = store := by
  have hseries : store.series.setIfInBounds ref.index (store.read ref) = store.series := by
    refine Array.ext_getElem? fun i => ?_
    simp only [read]
    grind
  rw [write, hseries]

theorem read_write (h : ref.index < store.series.size) :
    (store.write ref series).read ref = series := by
  simp [read, write, h]

theorem withoutName_of_free (h : store.find? name = none) : store.withoutName name = store := by
  have hnames : store.names.filter (·.1 ≠ name) = store.names := by
    refine List.filter_eq_self.mpr fun entry hentry => ?_
    have hne := List.lookup_eq_none_iff.mp h entry hentry
    grind
  rw [withoutName, hnames]

-- ---------------------------------------------------------------------------
-- One call
-- ---------------------------------------------------------------------------

/-- How a call ends that does what an operation does on whole stores: where the
operation fails, the store is what it was. -/
def settled (store : Store) : Except StorageError (Store × α) → Except StorageError α × Store
  | .ok (next, answer) => (.ok answer, next)
  | .error e => (.error e, store)

namespace Call

theorem madeOn_require_bind_of_find (h : store.find? name = some ref)
    (rest : SeriesRef → Call StorageError α) :
    (require name >>= rest).madeOn store = (rest ref).madeOn store := by
  simp [require, madeOn_bind, h]

theorem madeOn_require_bind_of_free (h : store.find? name = none)
    (rest : SeriesRef → Call StorageError α) :
    (require name >>= rest).madeOn store = (.error (.seriesNotFound name), store) := by
  simp [require, madeOn_bind, h]

theorem madeOn_insertInto (store : Store) (ref : SeriesRef) (sample : Sample Value) :
    (insertInto ref sample).madeOn store = match (store.read ref).insert sample with
      | .ok series => (.ok (), store.write ref series)
      | .error e => (.error e, store) := by
  simp only [insertInto, madeOn_bind, madeOn_get]
  cases (store.read ref).insert sample <;> rfl

theorem madeOn_insert_of_find (h : store.find? name = some ref) :
    (insert name sample).madeOn store = match (store.read ref).insert sample with
      | .ok series => (.ok (), store.write ref series)
      | .error e => (.error (.invalidSample name e), store) := by
  rw [insert, madeOn_require_bind_of_find h, madeOn_adapt, madeOn_insertInto]
  cases (store.read ref).insert sample <;> rfl

theorem madeOn_insertJson_of_find {timestamp : Instant} {tree : Json}
    (h : store.find? name = some ref) :
    (insertJson name timestamp tree).madeOn store = match ref.field.dataType.ofJson tree with
      | .ok value => (insert name ⟨timestamp, value⟩).madeOn store
      | .error e => (.error (.invalidSample name e), store) := by
  rw [insertJson, madeOn_require_bind_of_find h]
  cases ref.field.dataType.ofJson tree with
  | error e => rfl
  | ok value => simp only [insert, madeOn_require_bind_of_find h]

theorem run_countInserted (store : Store) (ref : SeriesRef) (inserted : Nat)
    (sample : Sample Value) : (countInserted ref inserted sample).run store =
      match (store.read ref).insert sample with
      | .ok series => (inserted + 1, store.write ref series)
      | .error _ => (inserted, store) := by
  have hmade := madeOn_insertInto store ref sample
  unfold madeOn at hmade
  rw [countInserted, StateT.run_bind, hmade]
  cases (store.read ref).insert sample <;> rfl

theorem foldlM_countInserted (h : ref.index < store.series.size) (samples : List (Sample Value))
    (inserted : Nat) :
    (samples.foldlM (countInserted ref) inserted).run store =
      (inserted + (insertFitting (store.read ref) samples).2,
        store.write ref (insertFitting (store.read ref) samples).1) := by
  induction samples generalizing store inserted with
  | nil =>
    simp only [insertFitting, write_read]
    rfl
  | cons sample rest ih =>
    rw [List.foldlM_cons, StateT.run_bind, run_countInserted, insertFitting]
    cases (store.read ref).insert sample with
    | error e => exact ih h inserted
    | ok series =>
      have hsize : ref.index < (store.write ref series).series.size := by simpa [write] using h
      refine (ih hsize (inserted + 1)).trans ?_
      rw [read_write h, write_write, Nat.add_assoc, Nat.add_comm 1]

theorem madeOn_insertBatch_of_find (h : store.find? name = some ref)
    (hindex : ref.index < store.series.size) : (insertBatch name samples).madeOn store =
      (.ok (insertFitting (store.read ref) samples).2,
        store.write ref (insertFitting (store.read ref) samples).1) := by
  have hcount := foldlM_countInserted hindex samples 0
  rw [Nat.zero_add] at hcount
  rw [insertBatch, madeOn_require_bind_of_find h]
  exact congrArg (fun ended : Nat × Store => (Except.ok ended.1, ended.2)) hcount

end Call

theorem call_create (field : Field) : (Operation.create field).call.madeOn store =
    store.settled (store.perform (.create field)) := by
  rw [perform, create]
  simp only [Operation.call, Call.create, Call.allocate, Call.madeOn_bind, Call.madeOn_get]
  cases store.find? field.urn <;> rfl

theorem call_drop (name : String) : (Operation.drop name).call.madeOn store =
    store.settled (store.perform (.drop name)) := by
  rw [perform, drop]
  simp only [Operation.call, Call.drop, Call.madeOn_bind, Call.madeOn_get]
  cases hfind : store.find? name with
  | none =>
    rw [require_of_free hfind]
    exact congrArg (Prod.mk _) (withoutName_of_free hfind)
  | some ref =>
    rw [require_of_find hfind]
    rfl

theorem call_insert (name : String) (sample : Sample Value) :
    (Operation.insert name sample).call.madeOn store =
      store.settled (store.perform (.insert name sample)) := by
  rw [perform, Operation.call, Call.madeOn_bind]
  cases hfind : store.find? name with
  | none =>
    rw [insert, require_of_free hfind, Call.insert, Call.madeOn_require_bind_of_free hfind]
    rfl
  | some ref =>
    rw [insert_of_find hfind, Call.madeOn_insert_of_find hfind]
    cases (store.read ref).insert sample <;> rfl

theorem call_insertBatch (hw : store.WellFormed) (name : String) (samples : List (Sample Value)) :
    (Operation.insertBatch name samples).call.madeOn store =
      store.settled (store.perform (.insertBatch name samples)) := by
  rw [perform, insertBatch, Operation.call]
  cases hfind : store.find? name with
  | none =>
    rw [require_of_free hfind, Call.insertBatch, Call.madeOn_require_bind_of_free hfind]
    rfl
  | some ref =>
    rw [require_of_find hfind, Call.madeOn_insertBatch_of_find hfind (hw.index_lt hfind)]
    rfl

theorem call_insertJson (name : String) (timestamp : Instant) (tree : Json) :
    (Operation.insertJson name timestamp tree).call.madeOn store =
      store.settled (store.perform (.insertJson name timestamp tree)) := by
  rw [perform, Operation.call, Call.madeOn_bind]
  cases hfind : store.find? name with
  | none =>
    rw [insertJson, require_of_free hfind, Call.insertJson,
      Call.madeOn_require_bind_of_free hfind]
    rfl
  | some ref =>
    rw [insertJson_of_find hfind, Call.madeOn_insertJson_of_find hfind]
    cases ref.field.dataType.ofJson tree with
    | error e => rfl
    | ok value =>
      simp only [insert_of_find hfind, Call.madeOn_insert_of_find hfind]
      cases (store.read ref).insert ⟨timestamp, value⟩ <;> rfl

theorem call_settles (hw : store.WellFormed) (operation : Operation) :
    operation.call.madeOn store = store.settled (store.perform operation) := by
  cases operation with
  | create field => exact call_create field
  | drop name => exact call_drop name
  | insert name sample => exact call_insert name sample
  | insertBatch name samples => exact call_insertBatch hw name samples
  | insertJson name timestamp tree => exact call_insertJson name timestamp tree

theorem eq_of_settled_error {step : Except StorageError (Store × α)} {e : StorageError}
    (h : store.settled step = (.error e, next)) : next = store := by
  cases step with
  | ok reply => cases h
  | error _ => exact (Prod.mk.inj h).2.symm

-- ---------------------------------------------------------------------------
-- Many calls
-- ---------------------------------------------------------------------------

theorem Refines.callAll (h : store.Refines logs) (operations : List Operation) :
    Operation.callAll store operations = Operation.runAll perform store operations := by
  induction operations generalizing store logs with
  | nil => rfl
  | cons operation rest ih =>
    rw [Operation.callAll, Operation.runAll, call_settles h.toWellFormed]
    cases hok : store.perform operation with
    | error e => simp only [settled, ih h]
    | ok reply =>
      obtain ⟨next, count⟩ := reply
      obtain ⟨_, _, -, hrefines⟩ := h.performs_of_ok hok
      simp only [settled, ih hrefines]

theorem callAll_insert (hfind : store.find? name = some ref)
    (hindex : ref.index < store.series.size) (samples : List (Sample Value)) :
    ∃ replies, Operation.callAll store (samples.map (.insert name)) =
        (store.write ref (insertFitting (store.read ref) samples).1, replies) ∧
      replies.countP (·.isOk) = (insertFitting (store.read ref) samples).2 := by
  induction samples generalizing store with
  | nil => exact ⟨[], by simp [Operation.callAll, insertFitting], rfl⟩
  | cons sample rest ih =>
    rw [List.map_cons, Operation.callAll, call_insert, perform, insert_of_find hfind, insertFitting]
    cases (store.read ref).insert sample with
    | error e =>
      obtain ⟨replies, hreplies, hcount⟩ := ih hfind hindex
      exact ⟨.error (.invalidSample name e) :: replies, by simp [settled, hreplies], hcount⟩
    | ok series =>
      have hnext : (store.write ref series).find? name = some ref := hfind
      obtain ⟨replies, hreplies, hcount⟩ := ih hnext (by simpa [write] using hindex)
      rw [read_write hindex] at hreplies hcount
      refine ⟨.ok 1 :: replies, by simp [settled, hreplies], ?_⟩
      rw [List.countP_cons_of_pos rfl, hcount]

theorem WellFormed.insertBatch (hw : store.WellFormed) (hseries : store.series? name = some series)
    (samples : List (Sample Value)) :
    ∃ next replies grown,
      Operation.callAll store (samples.map (.insert name)) = (next, replies) ∧
      (Call.insertBatch name samples).madeOn store = (.ok (replies.countP (·.isOk)), next) ∧
      next.series? name = some grown ∧
      grown.samples.size = series.samples.size + replies.countP (·.isOk) := by
  obtain ⟨ref, hfind, rfl⟩ := Option.map_eq_some_iff.mp hseries
  have hindex := hw.index_lt hfind
  obtain ⟨replies, hreplies, hcount⟩ := callAll_insert hfind hindex samples
  refine ⟨_, replies, (insertFitting (store.read ref) samples).1, hreplies, ?_, ?_, ?_⟩
  · rw [Call.madeOn_insertBatch_of_find hfind hindex, hcount]
  · rw [series?, find?_write, hfind, Option.map_some, read_write hindex]
  · rw [size_insertFitting, hcount]

theorem ofJson_eq_ok {type : DataType} {tree : Json} {value : Value} :
    type.ofJson tree = .ok value ↔
      ∃ loose, Value.decode tree = some loose ∧ type.coerce loose = .ok value := by
  rw [DataType.ofJson]
  cases Value.decode tree <;> simp

theorem WellFormed.insertJson_eq_ok (hw : store.WellFormed) {timestamp : Instant} {tree : Json} :
    (Call.insertJson name timestamp tree).madeOn store = (.ok (), next) ↔
      ∃ series loose value, store.series? name = some series ∧ Value.decode tree = some loose ∧
        series.field.dataType.coerce loose = .ok value ∧
        (Call.insert name ⟨timestamp, value⟩).madeOn store = (.ok (), next) := by
  cases hfind : store.find? name with
  | none =>
    rw [Call.insertJson, Call.madeOn_require_bind_of_free hfind]
    simp [series?, hfind]
  | some ref =>
    rw [Call.madeOn_insertJson_of_find hfind, ← hw.read_field hfind]
    have hseries : store.series? name = some (store.read ref) := by simp [series?, hfind]
    constructor
    · intro h
      cases htree : (store.read ref).field.dataType.ofJson tree with
      | error e => simp [htree] at h
      | ok value =>
        obtain ⟨loose, hloose, hvalue⟩ := ofJson_eq_ok.mp htree
        exact ⟨_, loose, value, hseries, hloose, hvalue, by simpa [htree] using h⟩
    · rintro ⟨series, loose, value, hfound, hloose, hvalue, hmade⟩
      cases hseries.symm.trans hfound
      rw [ofJson_eq_ok.mpr ⟨loose, hloose, hvalue⟩]
      exact hmade

theorem Call.madeOn_source (name : String) : ((source name).madeOn store).2 = store := by
  rw [source]
  cases hfind : store.find? name with
  | none => rw [madeOn_require_bind_of_free hfind]
  | some ref => rw [madeOn_require_bind_of_find hfind, madeOn_pure]

/-- Whatever calls a store has seen, those that failed included, it is the store
that operations on whole stores make. A call that fails leaves it as it is, and
so does taking a source. A batch for a series is its insertions one by one, passing
over those that fail; it answers the number of the others, by which the series
grows. A scalar of JSON is inserted exactly where the value that it is coerced to
is, with the same store behind it. -/
theorem failed_calls_without_trace (operations : List Operation) :
    ∃ store, (Operation.callAll .empty operations).1 = store ∧
      Operation.callAll .empty operations = Operation.runAll perform .empty operations ∧
      (∀ (operation : Operation) e next,
        operation.call.madeOn store = (.error e, next) → next = store) ∧
      (∀ name, ((Call.source name).madeOn store).2 = store) ∧
      (∀ name series samples, store.series? name = some series → ∃ next replies grown,
        Operation.callAll store (samples.map (.insert name)) = (next, replies) ∧
        (Call.insertBatch name samples).madeOn store = (.ok (replies.countP (·.isOk)), next) ∧
        next.series? name = some grown ∧
        grown.samples.size = series.samples.size + replies.countP (·.isOk)) ∧
      ∀ name timestamp tree next,
        (Call.insertJson name timestamp tree).madeOn store = (.ok (), next) ↔
          ∃ series loose value, store.series? name = some series ∧
            Value.decode tree = some loose ∧ series.field.dataType.coerce loose = .ok value ∧
            (Call.insert name ⟨timestamp, value⟩).madeOn store = (.ok (), next) := by
  have hcalls := Refines.empty.callAll operations
  obtain ⟨-, hrefines⟩ := Refines.empty.runAll operations
  rw [← hcalls] at hrefines
  have hw := hrefines.toWellFormed
  refine ⟨_, rfl, hcalls, fun operation e next hmade => ?_, Call.madeOn_source,
    fun name series samples hseries => hw.insertBatch hseries samples,
    fun name timestamp tree next => hw.insertJson_eq_ok⟩
  exact eq_of_settled_error ((call_settles hw operation).symm.trans hmade)

def mixedBatch : List (Sample Value) :=
  [⟨.ofNanos 35, .decimal (Float.ofInt 3)⟩, ⟨.ofNanos 45, .null⟩,
    ⟨.ofNanos 15, .decimal (Float.ofInt 1)⟩]

theorem mixedBatch_without_trace :
    ∃ store next replies grown later,
      (Operation.callAll .empty [.create (.plain "cpu" .decimal true)]).1 = store ∧
      (Operation.drop "mem").call.madeOn store = (.error (.seriesNotFound "mem"), store) ∧
      store.series? "cpu" = some (.empty (.plain "cpu" .decimal true)) ∧
      Operation.callAll store (mixedBatch.map (.insert "cpu")) = (next, replies) ∧
      (Call.insertBatch "cpu" mixedBatch).madeOn store = (.ok 2, next) ∧
      next.series? "cpu" = some grown ∧ grown.samples.size = 2 ∧
      (Call.insert "cpu" ⟨.epoch, .decimal (Float.ofInt 42)⟩).madeOn store = (.ok (), later) ∧
      (Call.insertJson "cpu" .epoch (.integer 42)).madeOn store = (.ok (), later) := by
  obtain ⟨store, rfl, -, hfails, -, hbatch, hjson⟩ :=
    failed_calls_without_trace [.create (.plain "cpu" .decimal true)]
  obtain ⟨next, replies, grown, hreplies, hmade, hgrown, hsize⟩ :=
    hbatch "cpu" (.empty (.plain "cpu" .decimal true)) mixedBatch rfl
  have hcount : replies.countP (·.isOk) = 2 :=
    congrArg (fun ended => ended.2.countP (·.isOk)) hreplies.symm
  rw [hcount] at hmade hsize
  obtain ⟨after, hdrop⟩ : ∃ after, (Operation.drop "mem").call.madeOn
      (Operation.callAll .empty [.create (.plain "cpu" .decimal true)]).1 =
        (.error (.seriesNotFound "mem"), after) := ⟨_, rfl⟩
  obtain rfl := hfails _ _ _ hdrop
  exact ⟨_, next, replies, grown, _, rfl, hdrop, rfl, hreplies, hmade, hgrown, hsize, rfl,
    (hjson _ _ _ _).mpr ⟨_, .integer 42, .decimal (Float.ofInt 42), rfl, rfl, rfl, rfl⟩⟩

end Store

end SeriesQuery
