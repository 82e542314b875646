import SeriesQuery.Proofs.Stream.Always
import SeriesQuery.Proofs.Stream.Answers
import SeriesQuery.Proofs.Time.Order
import SeriesQuery.Store.Series

/-!
# Chronological streams

A stream is chronological if its timestamps do not go back and none of its
errors says that some did, whatever its puller does. A guarded stream is so if
its answers to a puller that never cancels are, which makes the rules for the
stages of a query rules about lists of answers.
-/

namespace SeriesQuery

/-- A join met a timestamp that goes back, or a value was asked for that does not
lie between the samples around it. -/
def EvalError.IsOrderFault (error : EvalError) : Prop :=
  match error.cause with
  | .unsorted .. | .interpolationOutOfBounds .. => True
  | _ => False

def QueryError.IsOrderFault : QueryError → Prop
  | .eval error => error.IsOrderFault
  | _ => False

/-- From a timestamp on the answers do not go back, and their errors are no order
faults. -/
def Chronological (last : Option Instant) : List (Except QueryError (Sample α)) → Prop
  | [] => True
  | .error e :: rest => ¬ e.IsOrderFault ∧ Chronological last rest
  | .ok sample :: rest =>
    (∀ t ∈ last, t ≤ sample.timestamp) ∧ Chronological (some sample.timestamp) rest

def Pull.Chronological (last : Option Instant) : Pull (Sample α) → Prop
  | .stop => True
  | .item (.error e) next =>
    ¬ e.IsOrderFault ∧ ∀ cancelled, (next cancelled).Chronological last
  | .item (.ok sample) next =>
    (∀ t ∈ last, t ≤ sample.timestamp) ∧
      ∀ cancelled, (next cancelled).Chronological (some sample.timestamp)

def Stream.Chronological (stream : Stream (Sample α)) : Prop :=
  ∀ cancelled, (stream cancelled).Chronological none

-- ---------------------------------------------------------------------------
-- Lists of answers
-- ---------------------------------------------------------------------------

section
variable {last : Option Instant} {answers : List (Except QueryError (Sample α))}

theorem filterMap_toOption_error :
    (.error e :: answers).filterMap Except.toOption = answers.filterMap Except.toOption := rfl

theorem filterMap_toOption_ok {sample : Sample α} :
    (.ok sample :: answers).filterMap Except.toOption =
      sample :: answers.filterMap Except.toOption := rfl

theorem chronological_iff : Chronological last answers ↔
    (∀ t ∈ last, ∀ s ∈ answers.filterMap Except.toOption, t ≤ s.timestamp) ∧
      InOrder (answers.filterMap Except.toOption) ∧
      ∀ e, .error e ∈ answers → ¬ e.IsOrderFault := by
  induction answers generalizing last with
  | nil => simp [Chronological, InOrder]
  | cons answer rest ih =>
    cases answer with
    | error e =>
      rw [Chronological, ih, filterMap_toOption_error]
      simp only [List.mem_cons, Except.error.injEq, forall_eq_or_imp]
      exact ⟨fun ⟨he, hle, ho, hrest⟩ => ⟨hle, ho, he, hrest⟩,
        fun ⟨hle, ho, he, hrest⟩ => ⟨he, hle, ho, hrest⟩⟩
    | ok sample =>
      rw [Chronological, ih, filterMap_toOption_ok]
      simp only [InOrder, List.pairwise_cons, List.mem_cons, forall_eq_or_imp, Option.mem_def,
        Option.some.injEq, forall_eq', reduceCtorEq, false_or]
      constructor
      · rintro ⟨hlast, hle, ho, he⟩
        exact ⟨fun t ht => ⟨hlast t ht, fun s hs => Std.le_trans (hlast t ht) (hle s hs)⟩,
          ⟨hle, ho⟩, he⟩
      · rintro ⟨hlast, ⟨hle, ho⟩, he⟩
        exact ⟨fun t ht => (hlast t ht).1, hle, ho, he⟩

theorem InOrder.filter {samples : List (Sample α)} {test : Sample α → Bool} (h : InOrder samples) :
    InOrder (samples.filter test) :=
  List.Pairwise.filter test h

theorem InOrder.chronological_map {samples : List (Sample α)}
    {f : Sample α → Except QueryError (Sample β)} (h : InOrder samples)
    (hlast : ∀ t ∈ last, ∀ s ∈ samples, t ≤ s.timestamp)
    (hf : ∀ s, Outcome (f s) (fun a => a.timestamp = s.timestamp) fun e => ¬ e.IsOrderFault) :
    Chronological last (samples.map f) := by
  induction samples generalizing last with
  | nil => trivial
  | cons sample rest ih =>
    obtain ⟨hle, hrest⟩ := List.pairwise_cons.mp h
    have hsample := hf sample
    rw [List.map_cons]
    cases hresult : f sample with
    | error e =>
      rw [hresult] at hsample
      exact ⟨hsample, ih hrest fun t ht s hs => hlast t ht s (List.mem_cons_of_mem _ hs)⟩
    | ok a =>
      rw [hresult] at hsample
      have hat : a.timestamp = sample.timestamp := hsample
      rw [Chronological, hat]
      refine ⟨fun t ht => hlast t ht sample List.mem_cons_self, ih hrest fun t ht s hs => ?_⟩
      exact Option.some.inj ht ▸ hle s hs

/-- A step of a state machine goes on in order: `Inv` relates a state to the last
timestamps that have been read and told. -/
def Proceeds (Inv : σ → Option Instant → Option Instant → Prop) (last told : Option Instant) :
    σ × Option (Except QueryError (Sample β)) → Prop
  | (state, none) => Inv state last told
  | (state, some (.error e)) => ¬ e.IsOrderFault ∧ Inv state last told
  | (state, some (.ok a)) => (∀ t ∈ told, t ≤ a.timestamp) ∧ Inv state last (some a.timestamp)

variable {step : σ → Sample α → σ × Option (Except QueryError (Sample β))} {state : σ}

theorem Chronological.transduced {Q : Sample α → Prop} {told : Option Instant}
    (Inv : σ → Option Instant → Option Instant → Prop) (h : Chronological last answers)
    (hQ : ∀ s, .ok s ∈ answers → Q s)
    (hstep : ∀ state last told s, Inv state last told → Q s → (∀ t ∈ last, t ≤ s.timestamp) →
      Proceeds Inv (some s.timestamp) told (step state s))
    (hs : Inv state last told) : Chronological told (transduced step state answers) := by
  induction answers generalizing state last told with
  | nil => trivial
  | cons answer rest ih =>
    have hrest : ∀ s, .ok s ∈ rest → Q s := fun s hs => hQ s (List.mem_cons_of_mem _ hs)
    cases answer with
    | error e => exact ⟨h.1, ih h.2 hrest hs⟩
    | ok sample =>
      have hnext := hstep state last told sample hs (hQ sample List.mem_cons_self) h.1
      rw [SeriesQuery.transduced]
      rcases hresult : step state sample with ⟨state', _ | e | a⟩
      · rw [hresult] at hnext
        exact ih h.2 hrest hnext
      · rw [hresult] at hnext
        exact ⟨hnext.1, ih h.2 hrest hnext.2⟩
      · rw [hresult] at hnext
        exact ⟨hnext.1, ih h.2 hrest hnext.2⟩

theorem Chronological.transduced_at {Q : Sample α → Prop} (h : Chronological last answers)
    (hQ : ∀ s, .ok s ∈ answers → Q s)
    (hstep : ∀ state s answer, Q s → (step state s).2 = some answer →
      Outcome answer (fun a => a.timestamp = s.timestamp) fun e => ¬ e.IsOrderFault) :
    Chronological last (SeriesQuery.transduced step state answers) := by
  refine h.transduced (fun _ last told => ∀ t ∈ told, ∃ u ∈ last, t ≤ u) hQ
    (fun state last told s hinv hs hle => ?_) fun t ht => ⟨t, ht, Std.le_refl t⟩
  have htold : ∀ t ∈ told, t ≤ s.timestamp := fun t ht => by
    obtain ⟨u, hu, htu⟩ := hinv t ht
    exact Std.le_trans htu (hle u hu)
  have hanswer := fun answer => hstep state s answer hs
  rcases hresult : step state s with ⟨state', _ | e | a⟩
  · exact fun t ht => ⟨_, rfl, htold t ht⟩
  · rw [hresult] at hanswer
    exact ⟨hanswer _ rfl, fun t ht => ⟨_, rfl, htold t ht⟩⟩
  · rw [hresult] at hanswer
    have hat : a.timestamp = s.timestamp := hanswer _ rfl
    exact ⟨hat ▸ htold, fun t ht => ⟨_, rfl, Std.le_of_eq ((Option.some.inj ht).symm.trans hat)⟩⟩

end

-- ---------------------------------------------------------------------------
-- Streams
-- ---------------------------------------------------------------------------

namespace Pull

variable {last : Option Instant}

theorem chronological_failed {error : QueryError} (h : ¬ error.IsOrderFault) :
    (failed error : Pull (Sample α)).Chronological last :=
  ⟨h, fun _ => trivial⟩

theorem Chronological.answers {pull : Pull (Sample α)} (h : pull.Chronological last) :
    SeriesQuery.Chronological last pull.answers := by
  induction pull generalizing last with
  | stop => trivial
  | item answer next ih =>
    cases answer with
    | error e => exact ⟨h.1, ih false (h.2 false)⟩
    | ok sample => exact ⟨h.1, ih false (h.2 false)⟩

theorem chronological_guard {pull : Pull (Sample α)}
    (h : SeriesQuery.Chronological last pull.answers) : pull.guard.Chronological last := by
  induction pull generalizing last with
  | stop => trivial
  | item answer next ih =>
    cases answer with
    | error e => exact chronological_failed h.1
    | ok sample =>
      refine ⟨h.1, fun cancelled => ?_⟩
      cases cancelled with
      | true => exact chronological_failed id
      | false => exact ih false h.2

end Pull

namespace Stream

theorem chronological_empty : (empty : Stream (Sample α)).Chronological := fun _ => trivial

theorem Chronological.answers {stream : Stream (Sample α)} (h : stream.Chronological) :
    SeriesQuery.Chronological none stream.answers :=
  (h false).answers

/-- A guard forwards an error once and its puller's cancellation at once, so only
the answers to a puller that never cancels count. -/
theorem chronological_guard {stream : Stream (Sample α)}
    (h : SeriesQuery.Chronological none stream.answers) : stream.guard.Chronological := by
  intro cancelled
  cases cancelled with
  | true => exact Pull.chronological_failed id
  | false => exact Pull.chronological_guard h

end Stream

theorem Pull.Always.outcome {Q : α → Prop} {E : QueryError → Prop} {pull : Pull α}
    (h : pull.Always Q E) : ∀ answer ∈ pull.answers, Outcome answer Q E := by
  induction pull with
  | stop => exact fun answer ha => absurd ha List.not_mem_nil
  | item answer next ih => exact List.forall_mem_cons.mpr ⟨h.1, ih false (h.2 false)⟩

theorem Stream.Always.outcome {Q : α → Prop} {E : QueryError → Prop} {stream : Stream α}
    (h : stream.Always Q E) : ∀ answer ∈ stream.answers, Outcome answer Q E :=
  Pull.Always.outcome (h false)

end SeriesQuery
