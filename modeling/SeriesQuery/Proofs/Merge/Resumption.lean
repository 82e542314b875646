import SeriesQuery.Proofs.Merge.Steps

/-!
# Merges resume after errors

A merge can be pulled on past its errors. Its rows are then those of the merge
of the cleaned inputs: no sample gets lost or is paired with another one because
an error turned up while some heads were loaded and others were not. Each of the
errors is a flaw of an input, an error item of its own or a sample that really
goes back. What a run has not told of the flaws yet is left in the cursors: a
step tells the first flaw that is left of one input, or no flaw at all.
-/

namespace SeriesQuery

-- ---------------------------------------------------------------------------
-- Flaws of an input
-- ---------------------------------------------------------------------------

/-- What is wrong with an input, in its order: its errors, and the samples that
go back behind the last one kept. -/
def flaws (input : Nat) : Option Instant → List (Except QueryError (Sample α)) → List QueryError
  | _, [] => []
  | last, .error e :: rest => e :: flaws input last rest
  | last, .ok sample :: rest =>
    match Cursor.goesBack last sample.timestamp with
    | some previous => .eval (.unsorted input previous sample.timestamp) :: flaws input last rest
    | none => flaws input (some sample.timestamp) rest

def lastKept (last : Option Instant) (answers : List (Except QueryError (Sample α))) :
    Option Instant :=
  ((cleaned last answers).getLast?.map (·.timestamp)).or last

/-- A sample of an input has a timestamp before that of the last sample kept
before it. -/
def GoesBackIn (answers : List (Except QueryError (Sample α))) (previous timestamp : Instant) :
    Prop :=
  ∃ before sample after, answers = before ++ .ok sample :: after ∧
    (cleaned none before).getLast?.map (·.timestamp) = some previous ∧
    sample.timestamp = timestamp ∧ timestamp < previous

section
variable {last : Option Instant} {answers : List (Except QueryError (Sample α))}

theorem lastKept_cons {sample : Sample α} (h : Cursor.goesBack last sample.timestamp = none) :
    lastKept last (.ok sample :: answers) = lastKept (some sample.timestamp) answers := by
  rw [lastKept, lastKept, Cursor.cleaned_cons_of_goesBack h, List.getLast?_cons]
  cases (cleaned (some sample.timestamp) answers).getLast? <;> rfl

theorem lastKept_cons_back {sample : Sample α}
    (h : Cursor.goesBack last sample.timestamp = some previous) :
    lastKept last (.ok sample :: answers) = lastKept last answers := by
  rw [lastKept, lastKept, Cursor.cleaned_cons_of_goesBack_some h]

theorem mem_flaws (h : error ∈ flaws input last answers) :
    .error error ∈ answers ∨ ∃ before sample after previous,
      answers = before ++ .ok sample :: after ∧ lastKept last before = some previous ∧
      sample.timestamp < previous ∧ error = .eval (.unsorted input previous sample.timestamp) := by
  fun_induction flaws input last answers with
  | case1 => cases h
  | case2 last e rest ih =>
    rcases List.mem_cons.mp h with rfl | h
    · exact .inl List.mem_cons_self
    · rcases ih h with hmem | ⟨before, sample, after, previous, rfl, hlast, hback⟩
      · exact .inl (List.mem_cons_of_mem _ hmem)
      · exact .inr ⟨.error e :: before, sample, after, previous, rfl, hlast, hback⟩
  | case3 last sample rest previous hback ih =>
    rcases List.mem_cons.mp h with rfl | h
    · obtain ⟨rfl, hlt⟩ : last = some previous ∧ sample.timestamp < previous := by
        simpa [Cursor.goesBack, Option.filter_eq_some_iff] using hback
      exact .inr ⟨[], sample, rest, previous, rfl, rfl, hlt, rfl⟩
    · rcases ih h with hmem | ⟨before, other, after, found, rfl, hlast, hback'⟩
      · exact .inl (List.mem_cons_of_mem _ hmem)
      · exact .inr ⟨.ok sample :: before, other, after, found, rfl,
          (lastKept_cons_back hback).trans hlast, hback'⟩
  | case4 last sample rest hkept ih =>
    rcases ih h with hmem | ⟨before, other, after, found, rfl, hlast, hback⟩
    · exact .inl (List.mem_cons_of_mem _ hmem)
    · exact .inr ⟨.ok sample :: before, other, after, found, rfl,
        (lastKept_cons hkept).trans hlast, hback⟩

theorem mem_flaws_none (h : error ∈ flaws input none answers) :
    .error error ∈ answers ∨ ∃ previous timestamp,
      error = .eval (.unsorted input previous timestamp) ∧
        GoesBackIn answers previous timestamp := by
  rcases mem_flaws h with hmem | ⟨before, sample, after, previous, hanswers, hlast, hlt, rfl⟩
  · exact .inl hmem
  · rw [lastKept, Option.or_none] at hlast
    exact .inr ⟨previous, _, rfl, before, sample, after, hanswers, hlast, rfl, hlt⟩

end

-- ---------------------------------------------------------------------------
-- Pulls of an input
-- ---------------------------------------------------------------------------

namespace Cursor

variable {cursor : Cursor α}

def flawsLeft (input : Nat) (cursor : Cursor α) : List QueryError :=
  flaws input cursor.last cursor.stream.answers

/-- A pull of an input fails with the first of the flaws that are left, or leaves
all of them. -/
def Tells (input : Nat) (left : List QueryError) (result : Cursor α × Option QueryError) : Prop :=
  left = result.2.toList ++ result.1.flawsLeft input

theorem load_tells (input : Nat) (last : Option Instant) (pull : Pull (Sample α)) :
    Tells input (flaws input last pull.answers) (load input last pull) := by
  cases pull with
  | stop => rfl
  | item answer next =>
    cases answer with
    | error e => rfl
    | ok sample =>
      rw [Pull.answers_item, flaws, load]
      cases goesBack last sample.timestamp <;> rfl

theorem fill_tells (input : Nat) (cursor : Cursor α) :
    Tells input (cursor.flawsLeft input) (cursor.fill false input) := by
  unfold fill
  split
  · rfl
  · exact load_tells input cursor.last (cursor.stream false)

theorem seekFrom_tells (input : Nat) (key : Instant) (last : Option Instant)
    (pull : Pull (Sample α)) :
    Tells input (flaws input last pull.answers) (seekFrom false input key last pull) := by
  induction pull generalizing last with
  | stop => rfl
  | item answer next ih =>
    cases answer with
    | error e => rfl
    | ok sample =>
      rw [Pull.answers_item, flaws, seekFrom]
      cases goesBack last sample.timestamp with
      | some previous => rfl
      | none =>
        simp only
        split
        · exact ih false (some sample.timestamp)
        · rfl

theorem seek_tells (input : Nat) (key : Instant) (cursor : Cursor α) :
    Tells input (cursor.flawsLeft input) (cursor.seek false input key) := by
  have hsought := seekFrom_tells input key cursor.last (cursor.stream false)
  unfold seek
  split
  · split
    · exact hsought
    · rfl
  · exact hsought

theorem Pulled.tells (h : cursor.Pulled false input result) :
    Tells input (cursor.flawsLeft input) result := by
  cases h with
  | fill => exact fill_tells input cursor
  | seek => exact seek_tells input _ cursor

@[simp] theorem flawsLeft_passBy :
    (cursor.passBy key).flawsLeft input = cursor.flawsLeft input := by
  unfold passBy
  split <;> rfl

@[simp] theorem flawsLeft_dropBefore :
    (cursor.dropBefore key).flawsLeft input = cursor.flawsLeft input := by
  unfold dropBefore
  split <;> rfl

end Cursor

-- ---------------------------------------------------------------------------
-- Steps
-- ---------------------------------------------------------------------------

/-- An error is the first that one of several lists has left, and is taken from
it. Without an error nothing is taken. -/
def Takes (left : List (List QueryError)) (error : Option QueryError)
    (still : List (List QueryError)) : Prop :=
  match error with
  | none => left = still
  | some e => ∃ input rest, left[input]? = some (e :: rest) ∧ still = left.set input rest

theorem Takes.of_first {before after : List QueryError} (others : List (List QueryError))
    (h : before = error.toList ++ after) : Takes (before :: others) error (after :: others) := by
  cases error with
  | none => exact congrArg (· :: others) h
  | some e => exact ⟨0, after, congrArg some h, rfl⟩

theorem Takes.of_others {before after : List QueryError} (h : before = after)
    (ht : Takes left error still) : Takes (before :: left) error (after :: still) := by
  subst h
  cases error with
  | none => exact congrArg (before :: ·) ht
  | some e =>
    obtain ⟨input, rest, hget, rfl⟩ := ht
    exact ⟨input + 1, rest, hget, rfl⟩

namespace Merge

variable {cursors : List (Cursor α)} {kind : JoinKind}

def flawsLeft : Nat → List (Cursor α) → List (List QueryError)
  | _, [] => []
  | input, cursor :: rest => cursor.flawsLeft input :: flawsLeft (input + 1) rest

theorem flawsLeft_map {change : Cursor α → Cursor α}
    (h : ∀ input cursor, (change cursor).flawsLeft input = cursor.flawsLeft input) :
    flawsLeft input (cursors.map change) = flawsLeft input cursors := by
  induction cursors generalizing input with
  | nil => rfl
  | cons cursor rest ih => rw [List.map_cons, flawsLeft, flawsLeft, h, ih]

theorem flawsLeft_get? {streams : List (Stream (Sample α))} :
    (flawsLeft first (streams.map Cursor.ofStream))[input]? =
      streams[input]?.map fun stream => flaws (first + input) none stream.answers := by
  induction streams generalizing first input with
  | nil => rfl
  | cons stream rest ih =>
    cases input with
    | zero => rfl
    | succ input =>
      rw [List.map_cons, flawsLeft, List.getElem?_cons_succ, List.getElem?_cons_succ, ih,
        Nat.add_right_comm, Nat.add_assoc]

theorem Pulled.takes (h : Pulled false input cursors result) :
    Takes (flawsLeft input cursors) result.2 (flawsLeft input result.1) := by
  induction h with
  | nil => rfl
  | next hcursor _ ih => exact .of_others hcursor.tells ih
  | failed hcursor => exact .of_first _ hcursor.tells

def Step.Tells (left : List (List QueryError)) : Step α → Prop
  | .stop => True
  | .answer (.ok _) rest | .again rest => left = flawsLeft 0 rest.cursors
  | .answer (.error e) rest => Takes left (some e) (flawsLeft 0 rest.cursors)

theorem step_tells (merge : Merge α) : (merge.step false).Tells (flawsLeft 0 merge.cursors) := by
  have hsteps := step_steps false merge
  generalize merge.step false = step at hsteps ⊢
  cases hsteps with
  | stop => trivial
  | error hp => exact hp.takes
  | row hp _ => exact hp.takes.trans (flawsLeft_map fun _ _ => Cursor.flawsLeft_passBy).symm
  | again hp => exact hp.takes.trans (flawsLeft_map fun _ _ => Cursor.flawsLeft_dropBefore).symm

end Merge

-- ---------------------------------------------------------------------------
-- Runs
-- ---------------------------------------------------------------------------

def errors (answers : List (Except ε α)) : List ε :=
  answers.filterMap fun
    | .error e => some e
    | .ok _ => none

/-- Errors that are taken one after the other from several lists, each with the
number of its list. -/
inductive Taken : List (List QueryError) → List (Nat × QueryError) → Prop where
  | none : Taken left []
  | next : left[input]? = some (e :: rest) → Taken (left.set input rest) told →
      Taken left ((input, e) :: told)

theorem Taken.isPrefix (h : Taken left told) (input : Nat) :
    (told.filter (·.1 = input)).map (·.2) <+: left[input]?.getD [] := by
  induction h with
  | none => exact List.nil_prefix
  | @next left place e rest told hget _ ih =>
    by_cases hplace : place = input
    · subst hplace
      obtain ⟨hlt, -⟩ := List.getElem?_eq_some_iff.mp hget
      rw [List.getElem?_set_self hlt] at ih
      simpa [hget] using ih
    · rw [List.getElem?_set_ne hplace] at ih
      simpa [hplace] using ih

theorem Taken.mem (h : Taken left told) (he : entry ∈ told) :
    ∃ items, left[entry.1]? = some items ∧ entry.2 ∈ items := by
  have hfront := h.isPrefix entry.1
  have hmem : entry.2 ∈ left[entry.1]?.getD [] :=
    hfront.subset (List.mem_map.mpr ⟨entry, List.mem_filter.mpr ⟨he, by simp⟩, rfl⟩)
  cases hget : left[entry.1]? with
  | none => simp [hget] at hmem
  | some items => exact ⟨items, rfl, by simpa [hget] using hmem⟩

namespace Merge

theorem answers_taken (merge : Merge α) :
    ∃ told, Taken (flawsLeft 0 merge.cursors) told ∧
      told.map (·.2) = errors merge.stream.answers := by
  induction merge using run_induction with
  | h merge ih =>
    have hstep := step_tells merge
    rw [answers_stream]
    cases hs : merge.step false with
    | stop => exact ⟨[], .none, rfl⟩
    | again rest =>
      rw [hs] at hstep
      rw [show flawsLeft 0 merge.cursors = _ from hstep]
      exact ih rest (by rw [hs]; rfl)
    | answer answer rest =>
      obtain ⟨told, htaken, htold⟩ := ih rest (by rw [hs]; rfl)
      rw [hs] at hstep
      cases answer with
      | ok row =>
        rw [show flawsLeft 0 merge.cursors = _ from hstep]
        exact ⟨told, htaken, htold⟩
      | error e =>
        -- the error leaves the front of its list before the rest of the run goes on
        obtain ⟨input, others, hget, hstill⟩ := hstep
        exact ⟨(input, e) :: told, .next hget (hstill ▸ htaken), congrArg (e :: ·) htold⟩

/-- Pulled on past every error until its end, a merge answers the rows that it
answers for the cleaned inputs, whatever the inputs answer. The errors that it
answers of an input are the first of the flaws of that input, in their order:
each is an error of the input itself, or says of one of its samples behind which
timestamp it really goes back. -/
theorem resumes_behind_errors (kind : JoinKind) (streams : List (Stream (Sample α))) :
    (ofStreams kind (streams.map fun stream =>
        .ofAnswers ((cleaned none stream.answers).map .ok))).stream.answers =
      ((ofStreams kind streams).stream.answers.filterMap Except.toOption).map .ok ∧
    ∃ told : List (Nat × QueryError),
      told.map (·.2) = errors (ofStreams kind streams).stream.answers ∧
      (∀ input stream, streams[input]? = some stream →
        (told.filter (·.1 = input)).map (·.2) <+: flaws input none stream.answers) ∧
      ∀ entry ∈ told, ∃ stream, streams[entry.1]? = some stream ∧
        (.error entry.2 ∈ stream.answers ∨
          ∃ previous timestamp, entry.2 = .eval (.unsorted entry.1 previous timestamp) ∧
            GoesBackIn stream.answers previous timestamp) := by
  have hholds : (ofStreams kind streams).Holds (streams.map fun s => cleaned none s.answers) :=
    List.forall₂_map_left_iff.mpr (List.forall₂_map_right_iff.mpr
      (List.forall₂_same.mpr fun stream _ => Cursor.holds_ofStream stream))
  have hclean : List.Forall₂
      (fun stream items => stream.answers = items.map .ok ∧ InOrder items)
      (streams.map fun s => Stream.ofAnswers ((cleaned none s.answers).map .ok))
      (streams.map fun s => cleaned none s.answers) :=
    List.forall₂_map_left_iff.mpr (List.forall₂_map_right_iff.mpr
      (List.forall₂_same.mpr fun stream _ =>
        ⟨Stream.answers_ofAnswers, (cleaned_inOrder none stream.answers).1⟩))
  obtain ⟨rows, hjoins, hrows, -⟩ := stream_joins hholds
  obtain ⟨others, hanswers, hothers⟩ := answers_ofStreams kind hclean
  obtain ⟨told, htaken, htold⟩ := answers_taken (ofStreams kind streams)
  have hleft : ∀ input, (flawsLeft 0 (ofStreams kind streams).cursors)[input]? =
      streams[input]?.map fun stream => flaws input none stream.answers := fun input => by
    rw [ofStreams, flawsLeft_get?, Nat.zero_add]
  refine ⟨?_, told, htold, fun input stream hstream => ?_, fun entry hentry => ?_⟩
  · rw [hanswers, hrows, hothers.unique hjoins]
  · simpa [hleft, hstream] using htaken.isPrefix input
  · obtain ⟨items, hitems, hmem⟩ := htaken.mem hentry
    rw [hleft] at hitems
    obtain ⟨stream, hstream, rfl⟩ := Option.map_eq_some_iff.mp hitems
    exact ⟨stream, hstream, mem_flaws_none hmem⟩

end Merge

end SeriesQuery
