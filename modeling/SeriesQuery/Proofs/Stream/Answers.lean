import SeriesQuery.Stream.Basic

/-!
# The answers of a whole run

What a stream answers to a puller that never cancels and pulls on, past errors
too, until the end. The stages of a query act on these lists.
-/

namespace SeriesQuery

namespace Pull

/-- All answers from a pull on, while the query is not cancelled. -/
def answers : Pull α → List (Except QueryError α)
  | .stop => []
  | .item answer next => answer :: (next false).answers

@[simp] theorem answers_stop : (stop : Pull α).answers = [] := rfl

@[simp] theorem answers_item :
    (item answer next : Pull α).answers = answer :: (next false).answers := rfl

end Pull

def untilError : List (Except ε α) → List (Except ε α)
  | [] => []
  | .error e :: _ => [.error e]
  | .ok a :: rest => .ok a :: untilError rest

@[simp] theorem untilError_map_ok {l : List α} :
    untilError (l.map .ok : List (Except ε α)) = l.map .ok := by
  induction l with
  | nil => rfl
  | cons a rest ih => simp [untilError, ih]

theorem untilError_eq_map_ok {l : List (Except ε α)} {items : List α} :
    untilError l = items.map .ok ↔ l = items.map .ok := by
  induction l generalizing items with
  | nil => exact Iff.rfl
  | cons answer rest ih =>
    cases answer with
    | error e => cases items <;> simp [untilError]
    | ok a =>
      cases items with
      | nil => simp [untilError]
      | cons b items => simp [untilError, ih]

/-- The answers of a run that gives some items and ends, with an error or without
one. -/
def ended (items : List α) (failure : Option ε) : List (Except ε α) :=
  items.map .ok ++ failure.toList.map .error

@[simp] theorem ended_none {items : List α} :
    (ended items none : List (Except ε α)) = items.map .ok := List.append_nil _

@[simp] theorem ended_cons {a : α} {items : List α} {failure : Option ε} :
    ended (a :: items) failure = .ok a :: ended items failure := rfl

theorem nil_eq_ended {items : List α} {failure : Option ε} :
    [] = ended items failure ↔ items = [] ∧ failure = none := by
  cases items <;> cases failure <;> simp [ended]

theorem ok_cons_eq_ended {a : α} {l : List (Except ε α)} {items : List α} {failure : Option ε} :
    .ok a :: l = ended items failure ↔ ∃ rest, items = a :: rest ∧ l = ended rest failure := by
  cases items with
  | nil => cases failure <;> simp [ended]
  | cons b rest => simp [and_assoc, eq_comm]

theorem error_cons_eq_ended {e : ε} {l : List (Except ε α)} {items : List α}
    {failure : Option ε} :
    .error e :: l = ended items failure ↔ items = [] ∧ failure = some e ∧ l = [] := by
  cases items with
  | nil => cases failure <;> simp [ended, eq_comm]
  | cons b rest => simp

@[simp] theorem untilError_ended {items : List α} {failure : Option ε} :
    untilError (ended items failure) = ended items failure := by
  induction items with
  | nil => cases failure <;> rfl
  | cons a rest ih => simp [untilError, ih]

theorem untilError_isPrefix (l : List (Except ε α)) : untilError l <+: l := by
  induction l with
  | nil => exact List.prefix_rfl
  | cons answer rest ih =>
    cases answer with
    | error e => exact ⟨rest, rfl⟩
    | ok a => exact List.cons_prefix_cons.mpr ⟨rfl, ih⟩

theorem untilError_untilError {l : List (Except ε α)} :
    untilError (untilError l) = untilError l := by
  induction l with
  | nil => rfl
  | cons answer rest ih =>
    cases answer with
    | error e => rfl
    | ok a => exact congrArg (.ok a :: ·) ih

theorem getElem?_untilError_error {l : List (Except ε α)} {i : Nat} {e : ε} :
    (untilError l)[i]? = some (.error e) ↔
      l[i]? = some (.error e) ∧ ∀ j < i, ∃ a, l[j]? = some (.ok a) := by
  induction l generalizing i with
  | nil => simp [untilError]
  | cons answer rest ih =>
    cases answer with
    | error e' =>
      cases i with
      | zero => simp [untilError]
      | succ i =>
        simp only [untilError, List.getElem?_cons_succ, List.getElem?_nil, reduceCtorEq, false_iff]
        rintro ⟨-, hbefore⟩
        obtain ⟨a, ha⟩ := hbefore 0 (Nat.zero_lt_succ i)
        cases ha
    | ok a =>
      cases i with
      | zero => simp [untilError]
      | succ i =>
        simp only [untilError, List.getElem?_cons_succ, ih, Nat.forall_lt_succ_left,
          List.getElem?_cons_zero, Option.some.injEq, Except.ok.injEq, exists_eq', true_and]

theorem getElem?_of_untilError_append {l : List (Except ε α)} {failure : Option ε} {i : Nat}
    {a : α} (h : (untilError (l ++ failure.toList.map .error))[i]? = some (.ok a)) :
    l[i]? = some (.ok a) := by
  obtain ⟨hi, ha⟩ := List.getElem?_eq_some_iff.mp h
  have hfull := List.prefix_iff_getElem?.mp (untilError_isPrefix _) i hi
  rw [ha, List.getElem?_append] at hfull
  split at hfull
  · exact hfull
  · obtain ⟨e, -, he⟩ := List.mem_map.mp (List.mem_of_getElem? hfull)
    cases he

theorem untilError_map_append {answer : α → Except ε β} {item : α → β} {fault : α → Option ε}
    {l : List α} (h : ∀ a ∈ l, answer a = (fault a).elim (.ok (item a)) .error)
    (failure : Option ε) :
    untilError (l.map answer ++ failure.toList.map .error) =
      ended ((l.takeWhile fun a => (fault a).isNone).map item)
        ((l.findSome? fault).or failure) := by
  induction l with
  | nil => cases failure <;> rfl
  | cons a rest ih =>
    obtain ⟨ha, hrest⟩ := List.forall_mem_cons.mp h
    cases hfault : fault a with
    | none =>
      rw [hfault] at ha
      simp [ha, hfault, untilError, ih hrest]
    | some e =>
      rw [hfault] at ha
      simp [ha, hfault, untilError, ended]

/-- What a state machine answers for a list of answers; errors pass by. -/
def transduced (step : σ → α → σ × Option (Except ε β)) :
    σ → List (Except ε α) → List (Except ε β)
  | _, [] => []
  | state, .error e :: rest => .error e :: transduced step state rest
  | state, .ok a :: rest =>
    match step state a with
    | (state, none) => transduced step state rest
    | (state, some answer) => answer :: transduced step state rest

theorem transduced_ended {step : σ → α → σ × Option (Except ε β)} {items : List α}
    {failure : Option ε} :
    transduced step state (ended items failure) =
      transduced step state (items.map .ok) ++ failure.toList.map .error := by
  induction items generalizing state with
  | nil => cases failure <;> rfl
  | cons a rest ih =>
    rw [ended_cons, List.map_cons, transduced, transduced]
    rcases step state a with ⟨state', _ | answer⟩
    · exact ih
    · exact congrArg (answer :: ·) ih

theorem transduced_filter {step : σ → α → σ × Option (Except ε β)} {item : γ → α}
    {keep : γ → Bool} {l : List γ}
    (h : ∀ c ∈ l, keep c = false → ∀ state, step state (item c) = (state, none)) :
    transduced step state (((l.filter keep).map item).map .ok) =
      transduced step state ((l.map item).map .ok) := by
  induction l generalizing state with
  | nil => rfl
  | cons c rest ih =>
    obtain ⟨hc, hrest⟩ := List.forall_mem_cons.mp h
    cases hkeep : keep c with
    | false =>
      rw [List.filter_cons_of_neg (by simp [hkeep]), List.map_cons, List.map_cons, transduced,
        hc hkeep, ih hrest]
    | true =>
      simp only [List.filter_cons_of_pos hkeep, List.map_cons, transduced]
      rcases step state (item c) with ⟨state', _ | answer⟩
      · exact ih hrest
      · exact congrArg (answer :: ·) (ih hrest)

theorem untilError_transduced_untilError {step : σ → α → σ × Option (Except ε β)}
    {l : List (Except ε α)} :
    untilError (transduced step state (untilError l)) = untilError (transduced step state l) := by
  induction l generalizing state with
  | nil => rfl
  | cons answer rest ih =>
    cases answer with
    | error e => rfl
    | ok a =>
      rw [untilError, transduced, transduced]
      rcases step state a with ⟨state', _ | e | b⟩
      · exact ih
      · rfl
      · exact congrArg (.ok b :: ·) ih

theorem Pull.answers_transduce {step : σ → α → σ × Option (Except QueryError β)}
    {pull : Pull α} :
    (pull.transduce step state false).answers = transduced step state pull.answers := by
  induction pull generalizing state with
  | stop => rfl
  | item answer next ih =>
    cases answer with
    | error e => simp [transduce, transduced, ih]
    | ok a =>
      rw [transduce, answers_item, transduced]
      rcases step state a with ⟨state', _ | answer⟩
      · exact ih false
      · exact congrArg _ (ih false)

theorem Pull.answers_guard {pull : Pull α} : pull.guard.answers = untilError pull.answers := by
  induction pull with
  | stop => rfl
  | item answer next ih =>
    cases answer with
    | error e => rfl
    | ok a => simp [guard, untilError, ih]

theorem Pull.guard_congr {a b : Pull α} (h : untilError a.answers = untilError b.answers) :
    a.guard = b.guard := by
  induction a generalizing b with
  | stop =>
    cases b with
    | stop => rfl
    | item answer next => cases answer <;> simp [untilError] at h
  | item answer next ih =>
    cases b with
    | stop => cases answer <;> simp [untilError] at h
    | item other later =>
      cases answer with
      | error e => cases other <;> simp_all [untilError, guard]
      | ok item =>
        cases other with
        | error e => simp [untilError] at h
        | ok found =>
          simp only [answers_item, untilError, List.cons.injEq, Except.ok.injEq] at h
          obtain ⟨rfl, hrest⟩ := h
          rw [guard, guard, ih false hrest]

namespace Stream

def answers (stream : Stream α) : List (Except QueryError α) := (stream false).answers

@[simp] theorem answers_ofAnswers {answers : List (Except QueryError α)} :
    (ofAnswers answers).answers = answers := by
  induction answers with
  | nil => rfl
  | cons answer rest ih => exact congrArg (answer :: ·) ih

@[simp] theorem answers_guard {stream : Stream α} :
    stream.guard.answers = untilError stream.answers := by
  simp only [answers, guard, Bool.false_eq_true, if_false]
  exact Pull.answers_guard

theorem guard_congr {a b : Stream α} (h : untilError a.answers = untilError b.answers) :
    a.guard = b.guard := by
  funext cancelled
  rw [guard, guard, Pull.guard_congr h]

@[simp] theorem answers_transduce {step : σ → α → σ × Option (Except QueryError β)}
    {stream : Stream α} :
    (stream.transduce step state).answers = transduced step state stream.answers :=
  Pull.answers_transduce

@[simp] theorem answers_filterMap {f : α → Option (Except QueryError β)} {stream : Stream α} :
    (stream.filterMap f).answers =
      stream.answers.filterMap fun
        | .ok a => f a
        | .error e => some (.error e) := by
  simp only [answers, filterMap, transduce]
  induction stream false with
  | stop => rfl
  | item answer next ih =>
    cases answer with
    | error e => simp [Pull.transduce, ih]
    | ok a =>
      simp only [Pull.transduce, Pull.answers_item]
      cases h : f a with
      | none => simp [h, ih]
      | some b => simp [h, ih]

end Stream

end SeriesQuery
