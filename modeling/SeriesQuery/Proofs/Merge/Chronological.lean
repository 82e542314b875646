import SeriesQuery.Proofs.Merge.Steps
import SeriesQuery.Proofs.Stream.Chronological

/-!
# Merges of chronological inputs

The rows of a merge are in order whatever its inputs do. Of inputs that are
chronological it reports no timestamp that goes back: the errors that it answers
are those of its inputs. What a cursor knows of its input is kept by all that a
merge does with it, so the errors of a whole run follow from those of one pull.
-/

namespace SeriesQuery

-- ---------------------------------------------------------------------------
-- Errors of merges
-- ---------------------------------------------------------------------------

/-- A property of cursors that a merge keeps, and the errors that it meets
meanwhile. -/
structure Cursor.Kept (P : Cursor α → Prop) (E : QueryError → Prop) : Prop where
  fill : ∀ cancelled input cursor, P cursor → P (cursor.fill cancelled input).1 ∧
    ∀ e, (cursor.fill cancelled input).2 = some e → E e
  seek : ∀ cancelled input key cursor, P cursor → P (cursor.seek cancelled input key).1 ∧
    ∀ e, (cursor.seek cancelled input key).2 = some e → E e
  passBy : ∀ key cursor, P cursor → P (cursor.passBy key)
  dropBefore : ∀ key cursor, P cursor → P (cursor.dropBefore key)

namespace Merge

variable {P : Cursor α → Prop} {E : QueryError → Prop} {kind : JoinKind}
  {cursors : List (Cursor α)}

theorem Pulled.kept (hk : Cursor.Kept P E) (hp : Pulled cancelled input cursors result)
    (h : ∀ cursor ∈ cursors, P cursor) :
    (∀ cursor ∈ result.1, P cursor) ∧ ∀ e, result.2 = some e → E e := by
  have hpull : ∀ {input cursor result}, Cursor.Pulled cancelled input cursor result → P cursor →
      P result.1 ∧ ∀ e, result.2 = some e → E e := by
    intro input cursor result hp hcursor
    cases hp with
    | fill => exact hk.fill cancelled input cursor hcursor
    | seek => exact hk.seek cancelled input _ cursor hcursor
  induction hp with
  | nil => exact ⟨h, by simp⟩
  | next hcursor _ ih =>
    obtain ⟨hfirst, hrest⟩ := List.forall_mem_cons.mp h
    obtain ⟨hothers, herror⟩ := ih hrest
    exact ⟨List.forall_mem_cons.mpr ⟨(hpull hcursor hfirst).1, hothers⟩, herror⟩
  | failed hcursor =>
    obtain ⟨hfirst, hrest⟩ := List.forall_mem_cons.mp h
    obtain ⟨hpulled, herror⟩ := hpull hcursor hfirst
    exact ⟨List.forall_mem_cons.mpr ⟨hpulled, hrest⟩, herror⟩

def Step.Keeps (P : Cursor α → Prop) (E : QueryError → Prop) : Step α → Prop
  | .stop => True
  | .answer result rest => (∀ e, result = .error e → E e) ∧ ∀ cursor ∈ rest.cursors, P cursor
  | .again rest => ∀ cursor ∈ rest.cursors, P cursor

theorem step_keeps {merge : Merge α} (hk : Cursor.Kept P E) (cancelled : Bool)
    (h : ∀ cursor ∈ merge.cursors, P cursor) : (merge.step cancelled).Keeps P E := by
  have hsteps := step_steps cancelled merge
  generalize merge.step cancelled = step at hsteps ⊢
  cases hsteps with
  | stop => trivial
  | error hp =>
    obtain ⟨hpulled, herror⟩ := hp.kept hk h
    exact ⟨fun _ he => Except.error.inj he ▸ herror _ rfl, hpulled⟩
  | row hp _ =>
    exact ⟨by simp, List.forall_mem_map.mpr
      fun cursor hcursor => hk.passBy _ cursor ((hp.kept hk h).1 cursor hcursor)⟩
  | again hp =>
    exact List.forall_mem_map.mpr
      fun cursor hcursor => hk.dropBefore _ cursor ((hp.kept hk h).1 cursor hcursor)

theorem answers_errors {merge : Merge α} (hk : Cursor.Kept P E)
    (h : ∀ cursor ∈ merge.cursors, P cursor) :
    ∀ e, .error e ∈ merge.stream.answers → E e := by
  induction merge using run_induction with
  | h merge ih =>
    have hstep := step_keeps hk false h
    rw [answers_stream]
    cases hs : merge.step false with
    | stop => exact fun e he => absurd he List.not_mem_nil
    | answer answer rest =>
      rw [hs] at hstep
      intro e he
      rcases List.mem_cons.mp he with heq | he
      · exact hstep.1 e heq.symm
      · exact ih rest (by rw [hs]; rfl) hstep.2 e he
    | again rest =>
      rw [hs] at hstep
      exact ih rest (by rw [hs]; rfl) hstep

end Merge

-- ---------------------------------------------------------------------------
-- Chronological inputs
-- ---------------------------------------------------------------------------

namespace Cursor

variable {cursor : Cursor α} {last : Option Instant}

/-- The input goes on behind the last sample that was at the head. -/
def Chronological (cursor : Cursor α) : Prop :=
  ∀ cancelled, (cursor.stream cancelled).Chronological cursor.last

def GoesOn (result : Cursor α × Option QueryError) : Prop :=
  result.1.Chronological ∧ ∀ e, result.2 = some e → ¬ e.IsOrderFault

theorem goesOn_none (h : cursor.Chronological) : GoesOn (cursor, none) := ⟨h, by simp⟩

theorem goesOn_error (h : cursor.Chronological) (he : ¬ e.IsOrderFault) :
    GoesOn (cursor, some e) := ⟨h, by simpa using he⟩

theorem goesBack_eq_none (h : ∀ s ∈ last, s ≤ t) : goesBack last t = none := by
  cases last with
  | none => rfl
  | some s => exact goesBack_eq_none_iff.mpr (by simpa using h s rfl)

theorem load_goesOn {pull : Pull (Sample α)} (input : Nat) (h : pull.Chronological last) :
    GoesOn (load input last pull) := by
  cases pull with
  | stop => exact goesOn_none fun _ => trivial
  | item answer next =>
    cases answer with
    | error e => exact goesOn_error h.2 h.1
    | ok sample =>
      rw [load, goesBack_eq_none h.1]
      exact goesOn_none h.2

theorem fill_goesOn (cancelled : Bool) (input : Nat) (h : cursor.Chronological) :
    GoesOn (cursor.fill cancelled input) := by
  unfold fill
  split
  · exact goesOn_none h
  · exact load_goesOn input (h cancelled)

theorem seekFrom_goesOn {pull : Pull (Sample α)} (cancelled : Bool) (input : Nat) (key : Instant)
    (h : pull.Chronological last) : GoesOn (seekFrom cancelled input key last pull) := by
  induction pull generalizing last with
  | stop => exact goesOn_none fun _ => trivial
  | item answer next ih =>
    cases answer with
    | error e => exact goesOn_error h.2 h.1
    | ok sample =>
      rw [seekFrom, goesBack_eq_none h.1]
      simp only
      split
      · exact ih cancelled (h.2 cancelled)
      · exact goesOn_none h.2

theorem seek_goesOn (cancelled : Bool) (input : Nat) (key : Instant) (h : cursor.Chronological) :
    GoesOn (cursor.seek cancelled input key) := by
  have hsought := seekFrom_goesOn cancelled input key (h cancelled)
  unfold seek
  split
  · split
    · exact hsought
    · exact goesOn_none h
  · exact hsought

theorem kept_chronological :
    Kept (Chronological : Cursor α → Prop) fun e => ¬ e.IsOrderFault where
  fill cancelled input _ h := fill_goesOn cancelled input h
  seek cancelled input key _ h := seek_goesOn cancelled input key h
  passBy key cursor h := by
    unfold passBy
    split
    · exact h
    · exact h
  dropBefore key cursor h := by
    unfold dropBefore
    split
    · exact h
    · exact h

end Cursor

theorem Merge.chronological_ofStreams {kind : JoinKind} {streams : List (Stream (Sample α))}
    (h : ∀ stream ∈ streams, stream.Chronological) :
    Chronological none (ofStreams kind streams).stream.answers := by
  have hholds : (ofStreams kind streams).Holds (streams.map fun s => cleaned none s.answers) :=
    List.forall₂_map_left_iff.mpr (List.forall₂_map_right_iff.mpr
      (List.forall₂_same.mpr fun stream _ => Cursor.holds_ofStream stream))
  obtain ⟨rows, hjoins, hrows, -⟩ := stream_joins hholds
  refine chronological_iff.mpr ⟨by simp, hrows ▸ hjoins.inOrder, ?_⟩
  exact answers_errors Cursor.kept_chronological (List.forall_mem_map.mpr h)

end SeriesQuery
