import SeriesQuery.Proofs.Query.Fusion
import SeriesQuery.Proofs.Store.Logs
import SeriesQuery.Query.Traversal

/-!
# Sessions on a store

A caller changes a store, takes sources of its series by name, executes them and
pulls what comes of it, in any order. A source refers to its series and not to
the name: when the name is dropped, the series stays as it is, and no series that
gets the name later is read. An execution copies the samples in range, so the
pulls of a traversal answer these whatever is done in between.
-/

namespace SeriesQuery

-- ---------------------------------------------------------------------------
-- What a source refers to
-- ---------------------------------------------------------------------------

def Operation.drops (name : String) : Operation → Bool
  | .drop other => other = name
  | _ => false

namespace Store

/-- A series that no name refers to any more. -/
structure Nameless (store : Store) (index : Nat) : Prop where
  stored : index < store.series.size
  unnamed : ∀ name ref, store.find? name = some ref → ref.index ≠ index

variable {store next : Store} {logs : Logs} {ref : SeriesRef} {name : String}
  {operation : Operation} {after : Option Series}

theorem Performs.find? (h : Performs store operation after next)
    (hfind : store.find? name = some ref) (hkept : operation.drops name = false) :
    next.find? name = some ref := by
  cases h with
  | create hfree =>
    rw [find?_withSeries, if_neg]
    · exact hfind
    · rintro rfl
      rw [hfree] at hfind
      cases hfind
  | drop =>
    rw [find?_withoutName, if_neg]
    · exact hfind
    · rintro rfl
      simp [Operation.drops] at hkept
  | write => exact hfind

theorem Performs.nameless (h : Performs store operation after next)
    (hn : store.Nameless index) : next.Nameless index := by
  cases h with
  | @create field _ =>
    refine ⟨by simpa [withSeries] using Nat.lt_succ_of_lt hn.stored, fun name ref hfind => ?_⟩
    rw [find?_withSeries] at hfind
    split at hfind
    · cases hfind
      exact Nat.ne_of_gt hn.stored
    · exact hn.unnamed name ref hfind
  | drop =>
    refine ⟨hn.stored, fun name ref hfind => ?_⟩
    rw [find?_withoutName] at hfind
    split at hfind
    · cases hfind
    · exact hn.unnamed name ref hfind
  | write => exact ⟨by simpa [Store.write] using hn.stored, hn.unnamed⟩

theorem WellFormed.nameless_withoutName (h : store.WellFormed)
    (hfind : store.find? name = some ref) : (store.withoutName name).Nameless ref.index := by
  refine ⟨h.index_lt hfind, fun other found hother => ?_⟩
  rw [find?_withoutName] at hother
  split at hother
  · cases hother
  · next hne => exact fun hindex => hne (h.distinct hother hfind hindex)

theorem read_runAll_of_nameless (h : store.Refines logs) (hn : store.Nameless ref.index)
    (operations : List Operation) :
    (Operation.runAll perform store operations).1.read ref = store.read ref := by
  induction operations generalizing store logs with
  | nil => rfl
  | cons operation rest ih =>
    rw [Operation.runAll]
    cases hok : store.perform operation with
    | error e => exact ih h hn
    | ok reply =>
      obtain ⟨next, count⟩ := reply
      obtain ⟨_, _, hperforms, hrefines⟩ := h.performs_of_ok hok
      have hkept := (hperforms.untouched h.toWellFormed).unnamed ref.index hn.stored
        fun found hfound => hn.unnamed _ found hfound
      have hread : next.read ref = store.read ref := by rw [read, read, hkept]
      exact (ih hrefines (hperforms.nameless hn)).trans hread

theorem series?_until_drop (h : store.Refines logs) (hfind : store.find? name = some ref)
    (operations : List Operation) :
    (Operation.runAll perform store
        (operations.takeWhile fun operation => !operation.drops name)).1.series? name =
      some ((Operation.runAll perform store operations).1.read ref) := by
  induction operations generalizing store logs with
  | nil => simp [Operation.runAll, series?, hfind]
  | cons operation rest ih =>
    cases hdrops : operation.drops name with
    | true =>
      obtain rfl : operation = .drop name := by
        cases operation <;> simp_all [Operation.drops]
      have hdrop : store.perform (.drop name) = .ok (store.withoutName name, 0) := by
        rw [perform, drop, require_of_find hfind]
        rfl
      obtain ⟨_, _, -, hrefines⟩ := h.performs_of_ok hdrop
      rw [List.takeWhile_cons_of_neg (by simp [hdrops])]
      simp only [Operation.runAll, hdrop, series?, hfind, Option.map_some]
      exact congrArg some (read_runAll_of_nameless hrefines
        (h.nameless_withoutName hfind) rest).symm
    | false =>
      rw [List.takeWhile_cons_of_pos (by simp [hdrops]), Operation.runAll, Operation.runAll]
      cases hok : store.perform operation with
      | error e => exact ih h hfind
      | ok reply =>
        obtain ⟨_, _, hperforms, hrefines⟩ := h.performs_of_ok hok
        exact ih hrefines (hperforms.find? hfind hdrops)

end Store

theorem Operation.runAll_append {perform : σ → Operation → Except StorageError (σ × Nat)}
    {state : σ} (before later : List Operation) :
    (runAll perform state (before ++ later)).1 =
      (runAll perform (runAll perform state before).1 later).1 := by
  induction before generalizing state with
  | nil => rfl
  | cons operation rest ih =>
    rw [List.cons_append, runAll, runAll]
    cases perform state operation with
    | error e => exact ih
    | ok reply => exact ih

-- ---------------------------------------------------------------------------
-- Traversals
-- ---------------------------------------------------------------------------

namespace Traversal

variable {traversal : Traversal} {rows : List (Sample Row)}

/-- The pulls of a query will answer these rows and then ends. -/
structure WillAnswer (traversal : Traversal) (rows : List (Sample Row)) : Prop where
  running : traversal.cancelled = false
  rows_eq : traversal.rows false = (Pull.ofAnswers (rows.map .ok)).guard

theorem WillAnswer.pull (h : traversal.WillAnswer rows) :
    traversal.pull.1 = rows.head?.map .ok ∧ traversal.pull.2.WillAnswer rows.tail := by
  unfold Traversal.pull
  rw [h.running, h.rows_eq]
  cases rows with
  | nil => exact ⟨rfl, rfl, rfl⟩
  | cons row rest => exact ⟨rfl, rfl, rfl⟩

theorem willAnswer_ofSeries (series : Series) (range : TimeRange) :
    (start (Rowset.ofSeries series range)).WillAnswer
      ((series.scan range).map fun s => ⟨s.timestamp, [s.value]⟩) := by
  refine ⟨rfl, ?_⟩
  rw [List.map_map]
  rfl

end Traversal

-- ---------------------------------------------------------------------------
-- Sessions
-- ---------------------------------------------------------------------------

/-- A source that was taken from a store by the name of its series. -/
structure Reader where
  ref : SeriesRef
  window : TimeRange

def Reader.source (reader : Reader) (store : Store) : Source :=
  .series (store.read reader.ref) reader.window

/-- A store, the sources that were taken from it and the traversals that were
started, in their order. -/
structure Session where
  store : Store
  readers : List Reader
  traversals : List Traversal

namespace Session

def start : Session := ⟨.empty, [], []⟩

/-- What a caller does. A source is taken with a window on it, and sources and
traversals are told by their numbers. -/
inductive Command where
  | operate (operation : Operation)
  | take (name : String) (window : TimeRange)
  | execute (reader : Nat) (range : TimeRange)
  | pull (traversal : Nat)

/-- The session after a command, and the answer to a pull with the number of the
traversal. A command that fails leaves the session as it is. -/
def perform (session : Session) : Command → Session × Option (Nat × Traversal.Answer)
  | .operate operation =>
    match session.store.perform operation with
    | .ok (store, _) => ({ session with store }, none)
    | .error _ => (session, none)
  | .take name window =>
    match session.store.require name with
    | .ok ref => ({ session with readers := session.readers ++ [⟨ref, window⟩] }, none)
    | .error _ => (session, none)
  | .execute number range =>
    match session.readers[number]? with
    | none => (session, none)
    | some reader =>
      match (reader.source session.store).execute range with
      | .ok rowset =>
        ({ session with traversals := session.traversals ++ [Traversal.start rowset] }, none)
      | .error _ => (session, none)
  | .pull number =>
    match session.traversals[number]? with
    | none => (session, none)
    | some traversal =>
      ({ session with traversals := session.traversals.set number traversal.pull.2 },
        some (number, traversal.pull.1))

def run (session : Session) : List Command → Session × List (Nat × Traversal.Answer)
  | [] => (session, [])
  | command :: rest =>
    let (next, answer) := session.perform command
    let (last, answers) := next.run rest
    (last, answer.toList ++ answers)

def answersOf (number : Nat) (answers : List (Nat × Traversal.Answer)) : List Traversal.Answer :=
  (answers.filter (·.1 = number)).map (·.2)

def operations (commands : List Command) : List Operation :=
  commands.filterMap fun
    | .operate operation => some operation
    | _ => none

def Command.pulls (number : Nat) : Command → Bool
  | .pull other => other = number
  | _ => false

variable {session : Session} {command : Command} {commands : List Command} {number : Nat}

theorem run_cons : session.run (command :: commands) =
    (((session.perform command).1.run commands).1,
      (session.perform command).2.toList ++ ((session.perform command).1.run commands).2) := rfl

theorem run_append (before later : List Command) :
    (session.run (before ++ later)).1 = ((session.run before).1.run later).1 := by
  induction before generalizing session with
  | nil => rfl
  | cons command rest ih => exact ih

theorem store_perform : (session.perform command).1.store =
    (Operation.runAll Store.perform session.store (operations [command])).1 := by
  cases command with
  | operate operation =>
    simp only [perform, operations, List.filterMap_cons, List.filterMap_nil, Operation.runAll]
    cases session.store.perform operation <;> rfl
  | take name window =>
    rw [perform]
    cases session.store.require name <;> rfl
  | execute number range =>
    rw [perform]
    split
    · rfl
    · split <;> rfl
  | pull number =>
    rw [perform]
    split <;> rfl

theorem store_run : (session.run commands).1.store =
    (Operation.runAll Store.perform session.store (operations commands)).1 := by
  induction commands generalizing session with
  | nil => rfl
  | cons command rest ih =>
    have hsplit : operations (command :: rest) = operations [command] ++ operations rest :=
      List.filterMap_append (l := [command]) ..
    rw [run_cons, ih, store_perform, hsplit, Operation.runAll_append]

theorem readers_perform (h : session.readers[number]? = some reader) :
    (session.perform command).1.readers[number]? = some reader := by
  have hlt := (List.getElem?_eq_some_iff.mp h).1
  cases command with
  | operate operation =>
    rw [perform]
    split
    · exact h
    · exact h
  | take name window =>
    rw [perform]
    split
    · exact (List.getElem?_append_left hlt).trans h
    · exact h
  | execute other range =>
    rw [perform]
    split
    · exact h
    · split
      · exact h
      · exact h
  | pull other =>
    rw [perform]
    split
    · exact h
    · exact h

theorem readers_run (h : session.readers[number]? = some reader) :
    (session.run commands).1.readers[number]? = some reader := by
  induction commands generalizing session with
  | nil => exact h
  | cons command rest ih => exact ih (readers_perform h)

theorem perform_take (h : session.store.find? name = some ref) :
    (session.perform (.take name window)).1 =
      { session with readers := session.readers ++ [⟨ref, window⟩] } := by
  rw [perform, Store.require_of_find h]

theorem perform_execute (h : session.readers[number]? = some ⟨ref, window⟩) :
    session.perform (.execute number range) =
      ({ session with traversals := session.traversals ++
        [Traversal.start (Rowset.ofSeries (session.store.read ref) (range.intersect window))] },
        none) := by
  rw [perform, h]
  simp only [Reader.source, Source.execute]

theorem perform_traversal (command : Command) (h : session.traversals[number]? = some traversal) :
    command = .pull number ∧ (session.perform command).2 = some (number, traversal.pull.1) ∧
        (session.perform command).1.traversals[number]? = some traversal.pull.2 ∨
      command.pulls number = false ∧
        (∀ answer ∈ (session.perform command).2, answer.1 ≠ number) ∧
        (session.perform command).1.traversals[number]? = some traversal := by
  have hlt := (List.getElem?_eq_some_iff.mp h).1
  cases command with
  | operate operation =>
    refine .inr ⟨rfl, ?_⟩
    rw [perform]
    split
    · exact ⟨by simp, h⟩
    · exact ⟨by simp, h⟩
  | take name window =>
    refine .inr ⟨rfl, ?_⟩
    rw [perform]
    split
    · exact ⟨by simp, h⟩
    · exact ⟨by simp, h⟩
  | execute other range =>
    refine .inr ⟨rfl, ?_⟩
    rw [perform]
    split
    · exact ⟨by simp, h⟩
    · split
      · exact ⟨by simp, (List.getElem?_append_left hlt).trans h⟩
      · exact ⟨by simp, h⟩
  | pull other =>
    by_cases hother : other = number
    · subst hother
      rw [perform, h]
      exact .inl ⟨rfl, rfl, List.getElem?_set_self hlt⟩
    · refine .inr ⟨by simpa [Command.pulls] using hother, ?_⟩
      rw [perform]
      split
      · exact ⟨by simp, h⟩
      · exact ⟨by simpa using hother, (List.getElem?_set_ne hother).trans h⟩

theorem answersOf_append {before later : List (Nat × Traversal.Answer)} :
    answersOf number (before ++ later) = answersOf number before ++ answersOf number later := by
  rw [answersOf, List.filter_append, List.map_append]
  rfl

theorem answersOf_others {answers : List (Nat × Traversal.Answer)}
    (h : ∀ answer ∈ answers, answer.1 ≠ number) : answersOf number answers = [] := by
  rw [answersOf, List.filter_eq_nil_iff.mpr fun answer ha => by simpa using h answer ha]
  rfl

theorem answers_run (h : session.traversals[number]? = some traversal)
    (hrows : traversal.WillAnswer rows) :
    answersOf number (session.run commands).2 =
      (List.range (commands.countP (·.pulls number))).map fun k => rows[k]?.map .ok := by
  induction commands generalizing session traversal rows with
  | nil => rfl
  | cons command rest ih =>
    rw [run_cons, answersOf_append]
    obtain ⟨rfl, hanswer, hnext⟩ | ⟨hpulls, hothers, hnext⟩ :=
      perform_traversal command h
    · obtain ⟨hfirst, hlater⟩ := hrows.pull
      have hown : answersOf number [(number, traversal.pull.1)] = [rows[0]?.map .ok] := by
        simp [answersOf, hfirst, List.head?_eq_getElem?]
      rw [hanswer, Option.toList_some, hown, ih hnext hlater,
        List.countP_cons_of_pos (by simp [Command.pulls]), List.range_succ_eq_map, List.map_cons,
        List.map_map, List.singleton_append]
      refine congrArg _ (List.map_congr_left fun k _ => ?_)
      rw [List.getElem?_tail, Function.comp_apply]
    · rw [answersOf_others (by simpa using hothers), List.nil_append, ih hnext hrows,
        List.countP_cons_of_neg (by simp [hpulls])]

/-- The pulls of a traversal of a source answer the samples that the series of
the source had in range when it was executed, one by one, and then ends, whatever
is done between them. The series is the one that had the name when the source was
taken: it is what the name has then, or had just before it was dropped first,
whatever was created and inserted under the name since. -/
theorem traversal_answers_taken_series (early middle late : List Command) (name : String)
    (window range : TimeRange) (hname : (start.run early).1.store.find? name = some ref) :
    ∃ session series, (start.run (early ++ .take name window :: middle)).1 = session ∧
      session.store.read ref = series ∧
      (Operation.runAll Store.perform .empty (operations early ++ (operations middle).takeWhile
        fun operation => !operation.drops name)).1.series? name = some series ∧
      answersOf session.traversals.length
          (session.run (.execute (start.run early).1.readers.length range :: late)).2 =
        (List.range (late.countP (·.pulls session.traversals.length))).map fun k =>
          ((series.samples.toList.filter fun s =>
              range.contains s.timestamp && window.contains s.timestamp).map fun s =>
            (⟨s.timestamp, [s.value]⟩ : Sample Row))[k]?.map .ok := by
  obtain ⟨-, hrefines⟩ := Store.Refines.empty.runAll (operations early)
  have hearly : (start.run early).1.store =
      (Operation.runAll Store.perform .empty (operations early)).1 := store_run
  generalize hsession : (start.run (early ++ .take name window :: middle)).1 = session
  have hrun : session = (((start.run early).1.perform (.take name window)).1.run middle).1 := by
    rw [← hsession, run_append, run_cons]
  rw [perform_take hname] at hrun
  have hreader : session.readers[(start.run early).1.readers.length]? = some ⟨ref, window⟩ :=
    hrun ▸ readers_run List.getElem?_concat_length
  have hstore : session.store = (Operation.runAll Store.perform (start.run early).1.store
      (operations middle)).1 := by
    rw [hrun, store_run]
  refine ⟨session, session.store.read ref, rfl, rfl, ?_, ?_⟩
  · rw [Operation.runAll_append, hstore, hearly]
    exact Store.series?_until_drop hrefines (hearly ▸ hname) (operations middle)
  · have hrows := Traversal.willAnswer_ofSeries (session.store.read ref) (range.intersect window)
    rw [run_cons, perform_execute hreader, Option.toList_none, List.nil_append,
      answers_run List.getElem?_concat_length hrows, Series.scan_eq_filter]
    simp only [TimeRange.contains_intersect]

def creation : List Command :=
  [.operate (.create (.plain "cpu" .integer true)),
    .operate (.insert "cpu" ⟨.epoch, .integer 1⟩)]

def replacement : List Command :=
  [.operate (.insert "cpu" ⟨.epoch, .integer 2⟩), .operate (.drop "cpu"),
    .operate (.create (.plain "cpu" .integer true)),
    .operate (.insert "cpu" ⟨.epoch, .integer 9⟩)]

theorem replaced_series_unread :
    (start.run creation).1.store.find? "cpu" = some ⟨0, .plain "cpu" .integer true⟩ ∧
    ∃ session series, (start.run (creation ++ .take "cpu" .all :: replacement)).1 = session ∧
      session.store.read ⟨0, .plain "cpu" .integer true⟩ = series ∧
      (Operation.runAll Store.perform .empty (operations creation ++
        (operations replacement).takeWhile fun operation => !operation.drops "cpu")).1.series? "cpu" =
          some series ∧
      series.samples.toList = [⟨.epoch, .integer 1⟩, ⟨.epoch, .integer 2⟩] ∧
      answersOf session.traversals.length (session.run [.execute 0 .all, .pull 0,
          .operate (.insert "cpu" ⟨.epoch, .integer 7⟩), .pull 0, .pull 0]).2 =
        [some (.ok ⟨.epoch, [.integer 1]⟩), some (.ok ⟨.epoch, [.integer 2]⟩), none] := by
  have hname : (start.run creation).1.store.find? "cpu" =
      some ⟨0, .plain "cpu" .integer true⟩ := rfl
  obtain ⟨session, series, hsession, hseries, hnamed, hanswers⟩ :=
    traversal_answers_taken_series creation replacement
      [.pull 0, .operate (.insert "cpu" ⟨.epoch, .integer 7⟩), .pull 0, .pull 0] "cpu" .all .all hname
  have hlog : (Operation.runAll Logs.perform .empty (operations creation ++
      (operations replacement).takeWhile fun operation => !operation.drops "cpu")).1 "cpu" =
      some ⟨.plain "cpu" .integer true,
        [⟨.epoch, .integer 1⟩, ⟨.epoch, .integer 2⟩]⟩ := rfl
  have hkept := (Store.Refines.empty.runAll (operations creation ++
    (operations replacement).takeWhile fun operation => !operation.drops "cpu")).2.named "cpu"
  rw [hnamed, hlog] at hkept
  cases hkept with
  | some hkept =>
    have hsamples : series.samples.toList = [⟨.epoch, .integer 1⟩, ⟨.epoch, .integer 2⟩] := by
      rw [hkept.2.2.1]
      simp [sortByTime, List.mergeSort, List.MergeSort.Internal.splitInTwo, Instant.le_def]
    refine ⟨hname, session, series, hsession, hseries, hnamed, hsamples, ?_⟩
    rw [hsamples] at hanswers
    subst hsession
    exact hanswers

end Session

end SeriesQuery
