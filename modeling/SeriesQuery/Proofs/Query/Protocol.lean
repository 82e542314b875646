import SeriesQuery.Proofs.Query.Conformance
import SeriesQuery.Proofs.Query.Fusion
import SeriesQuery.Proofs.Resample.Align

/-!
# What the caller of a query can rely on

A caller pulls a running query and cancels it in any order. A stream obeys its
caller if the answers are rows, then at most one error or an end, and from then
on only ends, and if no row is answered once the query is cancelled: the next
answer of a query that has not ended then is the cancellation.

A guard makes any stream obey, whatever is behind it. Every stage of the library
puts a guard before its stream, except an override, which hands on the stream
that it is given.
-/

namespace SeriesQuery

/-- What the caller of a query that gives a stream can rely on, whatever it
does. -/
structure Stream.Obeys (stream : Stream (Sample Row)) : Prop where
  /-- The answers are rows, then at most one error, then ends. -/
  endsOnce : ∀ fields commands, ∃ (rows : List (Sample Row)) (error : Option QueryError) (n : Nat),
    (Traversal.start ⟨fields, stream⟩).answers commands =
      rows.map (fun row => some (.ok row)) ++ error.toList.map (fun e => some (.error e)) ++
        List.replicate n none
  /-- No row is answered once the query is cancelled. -/
  noRowAfterCancel : ∀ fields before after, ∃ later,
    (Traversal.start ⟨fields, stream⟩).answers (before ++ .cancel :: after) =
        (Traversal.start ⟨fields, stream⟩).answers before ++ later ∧
      ∀ row, some (.ok row) ∉ later
  /-- Where all answers so far are rows, the next one of a cancelled query is the
  cancellation. -/
  tellsCancel : ∀ fields before after,
    (∀ answer ∈ (Traversal.start ⟨fields, stream⟩).answers before, ∃ row, answer = some (.ok row)) →
    ∃ later, (Traversal.start ⟨fields, stream⟩).answers (before ++ .cancel :: .pull :: after) =
      (Traversal.start ⟨fields, stream⟩).answers before ++ some (.error .cancelled) :: later

/-- A stream behind a guard. -/
def Stream.Guarded (stream : Stream α) : Prop := ∃ inner : Stream α, stream = inner.guard

-- ---------------------------------------------------------------------------
-- One pull
-- ---------------------------------------------------------------------------

namespace Traversal

variable {traversal : Traversal}

def after : List Command → Traversal → Traversal
  | [], traversal => traversal
  | .pull :: rest, traversal => after rest traversal.pull.2
  | .cancel :: rest, traversal => after rest traversal.cancel

theorem answers_append {before later : List Command} :
    traversal.answers (before ++ later) =
      traversal.answers before ++ (traversal.after before).answers later := by
  induction before generalizing traversal with
  | nil => rfl
  | cons command rest ih =>
    cases command with
    | pull => exact congrArg (traversal.pull.1 :: ·) ih
    | cancel => exact ih

theorem pull_empty (h : traversal.rows = Stream.empty) : traversal.pull = (none, traversal) := by
  obtain ⟨fields, rows, cancelled⟩ := traversal
  subst h
  rfl

theorem pull_cancelled (h : traversal.rows.Guarded) (hc : traversal.cancelled = true) :
    traversal.pull = (some (.error .cancelled), { traversal with rows := Stream.empty }) := by
  obtain ⟨inner, hinner⟩ := h
  simp only [pull, hinner, hc, Stream.guard, if_true]
  rfl

theorem pull_guarded (h : traversal.rows.Guarded) (hc : traversal.cancelled = false) :
    (∃ row rest, traversal.pull = (some (.ok row), rest) ∧ rest.rows.Guarded ∧
        rest.cancelled = false) ∨
      ∃ answer rest, traversal.pull = (answer, rest) ∧ (∀ row, answer ≠ some (.ok row)) ∧
        rest.rows = Stream.empty := by
  obtain ⟨inner, hinner⟩ := h
  simp only [pull, hinner, hc, Stream.guard, Bool.false_eq_true, if_false]
  cases inner false with
  | stop => exact .inr ⟨_, _, rfl, by simp, rfl⟩
  | item answer next =>
    cases answer with
    | error e => exact .inr ⟨_, _, rfl, by simp, rfl⟩
    | ok row => exact .inl ⟨_, _, rfl, ⟨next, rfl⟩, rfl⟩

-- ---------------------------------------------------------------------------
-- Runs
-- ---------------------------------------------------------------------------

theorem answers_empty (traversal : Traversal) (commands : List Command)
    (h : traversal.rows = Stream.empty) :
    ∃ n, traversal.answers commands = List.replicate n none := by
  induction commands generalizing traversal with
  | nil => exact ⟨0, rfl⟩
  | cons command rest ih =>
    cases command with
    | cancel => exact ih traversal.cancel h
    | pull =>
      obtain ⟨n, hn⟩ := ih traversal h
      refine ⟨n + 1, ?_⟩
      rw [answers, pull_empty h, hn, List.replicate_succ]

theorem after_empty (traversal : Traversal) (commands : List Command)
    (h : traversal.rows = Stream.empty) :
    (traversal.after commands).rows = Stream.empty := by
  induction commands generalizing traversal with
  | nil => exact h
  | cons command rest ih =>
    cases command with
    | cancel => exact ih traversal.cancel h
    | pull =>
      rw [after, pull_empty h]
      exact ih traversal h

theorem answers_guarded (traversal : Traversal) (commands : List Command)
    (h : traversal.rows.Guarded) :
    ∃ (rows : List (Sample Row)) (error : Option QueryError) (n : Nat),
      traversal.answers commands =
        rows.map (fun row => some (.ok row)) ++ error.toList.map (fun e => some (.error e)) ++
          List.replicate n none := by
  -- the guard is before what is left as long as rows are answered
  induction commands generalizing traversal with
  | nil => exact ⟨[], none, 0, rfl⟩
  | cons command rest ih =>
    cases command with
    | cancel => exact ih traversal.cancel h
    | pull =>
      cases hc : traversal.cancelled with
      | true =>
        rw [answers, pull_cancelled h hc]
        obtain ⟨n, hn⟩ := answers_empty { traversal with rows := .empty } rest rfl
        exact ⟨[], some .cancelled, n, congrArg _ hn⟩
      | false =>
        rw [answers]
        obtain ⟨row, next, hpull, hnext, -⟩ | ⟨answer, next, hpull, hrow, hnext⟩ :=
          pull_guarded h hc
        · obtain ⟨rows, error, n, hn⟩ := ih next hnext
          exact ⟨row :: rows, error, n, by rw [hpull, hn]; rfl⟩
        · obtain ⟨n, hn⟩ := answers_empty next rest hnext
          rw [hpull, hn]
          rcases answer with _ | e | row
          · exact ⟨[], none, n + 1, rfl⟩
          · exact ⟨[], some e, n, rfl⟩
          · exact absurd rfl (hrow row)

theorem after_guarded (traversal : Traversal) (commands : List Command)
    (h : traversal.rows.Guarded) :
    (traversal.after commands).rows.Guarded ∨
      (traversal.after commands).rows = Stream.empty ∧
        ∃ answer ∈ traversal.answers commands, ∀ row, answer ≠ some (.ok row) := by
  induction commands generalizing traversal with
  | nil => exact .inl h
  | cons command rest ih =>
    cases command with
    | cancel => exact ih traversal.cancel h
    | pull =>
      simp only [after, answers]
      cases hc : traversal.cancelled with
      | true =>
        rw [pull_cancelled h hc]
        exact .inr ⟨after_empty _ rest rfl, _, List.mem_cons_self, by simp⟩
      | false =>
        obtain ⟨row, next, hpull, hnext, -⟩ | ⟨answer, next, hpull, hrow, hnext⟩ :=
          pull_guarded h hc
        · rw [hpull]
          rcases ih next hnext with hguarded | ⟨hended, answer, hmem, hrow⟩
          · exact .inl hguarded
          · exact .inr ⟨hended, answer, List.mem_cons_of_mem _ hmem, hrow⟩
        · rw [hpull]
          exact .inr ⟨after_empty next rest hnext, answer, List.mem_cons_self, hrow⟩

theorem answers_cancelled (commands : List Command)
    (h : traversal.rows.Guarded ∨ traversal.rows = Stream.empty)
    (hc : traversal.cancelled = true) : ∀ row, some (.ok row) ∉ traversal.answers commands := by
  have hended : ∀ rest (t : Traversal), t.rows = Stream.empty →
      ∀ row, some (.ok row) ∉ t.answers rest := by
    intro rest t ht row hmem
    obtain ⟨n, hn⟩ := answers_empty t rest ht
    rw [hn] at hmem
    cases List.eq_of_mem_replicate hmem
  rcases h with h | h
  · induction commands with
    | nil => exact fun row => List.not_mem_nil
    | cons command rest ih =>
      cases command with
      | cancel =>
        -- cancelling once more changes nothing
        have hagain : traversal.cancel = traversal := by rw [cancel, ← hc]
        rw [answers, hagain]
        exact ih
      | pull =>
        intro row hmem
        rw [answers, pull_cancelled h hc] at hmem
        rcases List.mem_cons.mp hmem with hfirst | hmem
        · cases hfirst
        · exact hended rest _ rfl row hmem
  · exact hended commands traversal h

end Traversal

theorem Stream.Guarded.obeys {stream : Stream (Sample Row)} (h : stream.Guarded) :
    stream.Obeys where
  endsOnce _ commands := Traversal.answers_guarded _ commands h
  noRowAfterCancel fields before after := by
    refine ⟨_, Traversal.answers_append, ?_⟩
    have hafter := Traversal.after_guarded (.start ⟨fields, stream⟩) before h
    exact Traversal.answers_cancelled after (hafter.imp_right And.left) rfl
  tellsCancel fields before after hrows := by
    have hafter := Traversal.after_guarded (.start ⟨fields, stream⟩) before h
    have hguarded : ((Traversal.start ⟨fields, stream⟩).after before).rows.Guarded := by
      refine hafter.resolve_right fun ⟨_, answer, hmem, hno⟩ => ?_
      obtain ⟨row, hrow⟩ := hrows answer hmem
      exact hno row hrow
    rw [Traversal.answers_append, Traversal.answers, Traversal.answers,
      Traversal.pull_cancelled (show (Traversal.cancel _).rows.Guarded from hguarded) rfl]
    exact ⟨_, rfl⟩

-- ---------------------------------------------------------------------------
-- Filters
-- ---------------------------------------------------------------------------

theorem Rowset.override_rows {input out : Rowset} (h : input.override target change = .ok out) :
    out.rows = input.rows := by
  simp only [override, bind_eq_ok, pure_eq_ok] at h
  obtain ⟨index, -, _, -, rfl⟩ := h
  rfl

theorem Filter.apply_guarded {filter : Filter} {input out : Rowset}
    (hf : ∀ target change, filter ≠ .override target change)
    (h : filter.apply input = .ok out) : out.rows.Guarded := by
  cases filter with
  | window range =>
    cases h
    exact ⟨_, rfl⟩
  | align grid =>
    obtain ⟨single, hsingle, rfl⟩ := map_eq_ok.mp h
    obtain ⟨-, -, hrows⟩ := alignSingle_eq_ok hsingle
    exact ⟨_, hrows⟩
  | gapFill fill =>
    simp only [apply, Rowset.gapFill, bind_eq_ok, throw_unless_eq_ok, pure_eq_ok] at h
    obtain ⟨field, -, -, rfl⟩ := h
    exact ⟨fun cancelled => fill.run _ _ none (input.rows cancelled), rfl⟩
  | delta =>
    obtain ⟨field, -, rfl⟩ := Rowset.delta_eq_ok h
    exact ⟨_, rfl⟩
  | rate =>
    obtain ⟨field, -, rfl⟩ := Rowset.rate_eq_ok h
    exact ⟨_, rfl⟩
  | counterDelta maximum =>
    obtain ⟨field, coerced, -, -, rfl⟩ := Rowset.counterDelta_eq_ok h
    exact ⟨_, rfl⟩
  | project columns =>
    simp only [apply, Rowset.project, bind_eq_ok, pure_eq_ok] at h
    obtain ⟨compiled, -, _, -, rfl⟩ := h
    exact ⟨_, rfl⟩
  | keepWhere predicate =>
    simp only [apply, Rowset.keepWhere, bind_eq_ok, throw_unless_eq_ok, pure_eq_ok] at h
    obtain ⟨compiled, -, -, rfl⟩ := h
    exact ⟨_, rfl⟩
  | override target change => exact absurd rfl (hf target change)

theorem Filter.applyAll_guarded {filters : List Filter} {input out : Rowset}
    (hg : input.rows.Guarded) (h : Filter.applyAll filters input = .ok out) :
    out.rows.Guarded := by
  induction filters generalizing input with
  | nil =>
    cases h
    exact hg
  | cons filter rest ih =>
    simp only [applyAll, applyStaged, bind_eq_ok, QueryError.within_eq_ok] at h
    obtain ⟨applied, happlied, h⟩ := h
    refine ih ?_ h
    by_cases hf : ∃ target change, filter = .override target change
    · obtain ⟨target, change, rfl⟩ := hf
      rwa [Rowset.override_rows happlied]
    · exact apply_guarded (fun target change heq => hf ⟨target, change, heq⟩) happlied

/-- What a filter gives obeys, whatever stream it is given; only what an override
gives obeys just if its input does. -/
theorem Filter.apply_obeys_iff {filter : Filter} {input out : Rowset}
    (h : filter.apply input = .ok out) :
    out.rows.Obeys ↔
      ∀ target change, filter = .override target change → input.rows.Obeys := by
  by_cases hf : ∃ target change, filter = .override target change
  · obtain ⟨target, change, rfl⟩ := hf
    rw [Rowset.override_rows h]
    exact ⟨fun hobeys _ _ _ => hobeys, fun hinput => hinput target change rfl⟩
  · have hguarded := apply_guarded (fun target change heq => hf ⟨target, change, heq⟩) h
    exact ⟨fun _ target change heq => absurd ⟨target, change, heq⟩ hf, fun _ => hguarded.obeys⟩

def Stream.heedless : Stream (Sample Row) :=
  .ofAnswers [.error (.eval .divisionByZero), .ok ⟨.epoch, [.integer 1]⟩]

theorem Filter.delta_obeys_of_heedless :
    ∃ out, Filter.delta.apply ⟨[.plain "a" .integer true], .heedless⟩ = .ok out ∧
      out.rows.Obeys := by
  obtain ⟨out, hout⟩ :
      ∃ out, Filter.delta.apply ⟨[.plain "a" .integer true], .heedless⟩ = .ok out := ⟨_, rfl⟩
  refine ⟨out, hout, (Filter.apply_obeys_iff hout).mpr fun target change hdelta => ?_⟩
  cases hdelta

/-- Behind an override an error does not end the stream, and a cancellation is
not told. -/
theorem Filter.override_passes_heedless :
    ∃ out, (Filter.override "a" ⟨none, none, .empty⟩).apply
        ⟨[.plain "a" .integer true], .heedless⟩ = .ok out ∧
      (Traversal.start out).answers [.pull, .pull] =
        [some (.error (.eval .divisionByZero)), some (.ok ⟨.epoch, [.integer 1]⟩)] ∧
      (Traversal.start out).answers [.cancel, .pull] = [some (.error (.eval .divisionByZero))] ∧
      ¬ out.rows.Obeys := by
  refine ⟨_, rfl, rfl, rfl, fun hobeys => ?_⟩
  obtain ⟨later, hlater⟩ := hobeys.tellsCancel [] [] [] (by simp [Traversal.answers])
  cases hlater

-- ---------------------------------------------------------------------------
-- Queries
-- ---------------------------------------------------------------------------

namespace Source

/-- A query of the library whose reductions have inputs. -/
inductive Supplied : Source → Prop where
  | rows : Supplied (.rows fields samples)
  | series : Supplied (.series scanned window)
  | join : (∀ input ∈ inputs, Supplied input) → Supplied (.join kind inputs)
  | reduce : inputs ≠ [] → (∀ input ∈ inputs, Supplied input) →
      Supplied (.reduce reduction grid template inputs fallback)
  | pipeline : Supplied source → Supplied (.pipeline source filters)

end Source

theorem Rowset.reduceAligned_guarded {singles : List SingleRowset} {out : Rowset}
    (hs : ∀ single ∈ singles, single.rows.Guarded)
    (h : reduceAligned reduction template singles = .ok out) : out.rows.Guarded := by
  cases singles with
  | nil => cases h
  | cons first rest =>
    simp only [reduceAligned, bind_eq_ok] at h
    obtain ⟨_, -, h⟩ := h
    split at h
    · -- the stream of the only input passes as it is, with the guard of its alignment
      obtain rfl := pure_eq_ok.mp h
      exact hs first List.mem_cons_self
    · obtain rfl := pure_eq_ok.mp h
      exact ⟨_, rfl⟩

namespace Source

theorem execute_guarded {source : Source} {rowset : Rowset} (hs : source.Supplied)
    (h : source.execute range = .ok rowset) : rowset.rows.Guarded := by
  induction hs generalizing rowset with
  | rows =>
    simp only [execute, Rowset.ofRows, bind_eq_ok, pure_eq_ok] at h
    obtain ⟨_, -, rfl⟩ := h
    exact ⟨_, rfl⟩
  | series =>
    cases h
    exact ⟨_, rfl⟩
  | join _ _ =>
    obtain ⟨-, inputs, -, hjoin⟩ := execute_join_eq_ok.mp h
    obtain ⟨-, rfl⟩ := Rowset.join_eq_ok.mp hjoin
    exact ⟨_, rfl⟩
  | reduce hne _ _ =>
    obtain ⟨inputs, singles, -, hsingles, hreduced⟩ := (execute_reduce_eq_ok hne).mp h
    refine Rowset.reduceAligned_guarded (fun single hsingle => ?_) hreduced
    obtain ⟨input, -, haligned⟩ := exists_of_forall₂ hsingles.flip hsingle
    exact ⟨_, (alignSingle_eq_ok haligned).2.2⟩
  | pipeline _ ih =>
    rw [execute_pipeline, bind_eq_ok] at h
    obtain ⟨input, hinput, hout⟩ := h
    exact Filter.applyAll_guarded (ih hinput) hout

/-- Queries of the library obey their callers. -/
theorem execute_obeys {source : Source} {rowset : Rowset} (hs : source.Supplied)
    (h : source.execute range = .ok rowset) : rowset.rows.Obeys :=
  (execute_guarded hs h).obeys

def renamedSum (grid : Grid) : Source :=
  .pipeline
    (.reduce .sum grid (.plain "total" .integer true)
      [.rows [.plain "a" .integer true] Rowset.twoMonths] none)
    [.override "total" ⟨some "sum", none, .empty⟩]

theorem renamed_sum_obeys :
    ∃ period rowset, (PeriodSpec.calendar .day 3600).build = .ok period ∧
      (renamedSum period.grid).Supplied ∧ (renamedSum period.grid).execute .all = .ok rowset ∧
      rowset.rows.Obeys := by
  have hsupplied (grid : Grid) : (renamedSum grid).Supplied :=
    .pipeline (.reduce (by simp) (by simp [Supplied.rows]))
  obtain ⟨rowset, hrowset⟩ : ∃ rowset, (renamedSum
      (Period.grid (.calendar ⟨.day, ⟨3600, by decide, by decide⟩⟩))).execute .all = .ok rowset :=
    ⟨_, rfl⟩
  exact ⟨_, rowset, rfl, hsupplied _, hrowset, execute_obeys (hsupplied _) hrowset⟩

end Source

end SeriesQuery
