import SeriesQuery.Proofs.Outcome
import SeriesQuery.Stream.Basic

/-!
# Answers to any puller

`Stream.Always Q E` says of a stream that, whenever it is cancelled and however
long it is pulled, the items that it answers satisfy `Q` and its errors satisfy
`E`. There is one rule for each way in which streams are made of others.
-/

namespace SeriesQuery

variable {Q : α → Prop} {R : β → Prop} {E F : QueryError → Prop}

/-- Every answer from a pull on, whatever the puller says later. -/
def Pull.Always (Q : α → Prop) (E : QueryError → Prop) : Pull α → Prop
  | .stop => True
  | .item answer next => Outcome answer Q E ∧ ∀ cancelled, (next cancelled).Always Q E

def Stream.Always (Q : α → Prop) (E : QueryError → Prop) (stream : Stream α) : Prop :=
  ∀ cancelled, (stream cancelled).Always Q E

-- ---------------------------------------------------------------------------
-- Pulls
-- ---------------------------------------------------------------------------

namespace Pull

theorem always_stop : (stop : Pull α).Always Q E := trivial

theorem Always.item (ha : Outcome answer Q E) (hn : Stream.Always Q E next) :
    (item answer next).Always Q E := ⟨ha, hn⟩

theorem always_failed (h : E e) : (failed e : Pull α).Always Q E :=
  .item h fun _ => always_stop

theorem Always.mono {P : α → Prop} {pull : Pull α} (h : pull.Always Q E) (hQ : ∀ a, Q a → P a)
    (hE : ∀ e, E e → F e) : pull.Always P F := by
  induction pull with
  | stop => exact always_stop
  | item answer next ih => exact .item (h.1.mono hQ hE) fun cancelled => ih _ (h.2 cancelled)

theorem always_ofAnswers {l : List (Except QueryError α)} (h : ∀ answer ∈ l, Outcome answer Q E) :
    (ofAnswers l).Always Q E := by
  induction l with
  | nil => exact always_stop
  | cons answer rest ih =>
    obtain ⟨hanswer, hrest⟩ := List.forall_mem_cons.mp h
    exact .item hanswer fun _ => ih hrest

theorem Always.guard {pull : Pull α} (h : pull.Always Q E) (hc : E .cancelled) :
    pull.guard.Always Q E := by
  induction pull with
  | stop => exact always_stop
  | item answer next ih =>
    cases answer with
    | error e => exact always_failed h.1
    | ok a =>
      refine .item h.1 fun cancelled => ?_
      cases cancelled with
      | true => exact always_failed hc
      | false => exact ih _ (h.2 false)

theorem Always.transduce {step : σ → α → σ × Option (Except QueryError β)} {pull : Pull α}
    (Inv : σ → Prop) (h : pull.Always Q E) (hE : ∀ e, E e → F e)
    (hstep : ∀ state a, Inv state → Q a → Inv (step state a).1 ∧
      ∀ answer, (step state a).2 = some answer → Outcome answer R F) (hs : Inv state) :
    (pull.transduce step state cancelled).Always R F := by
  induction pull generalizing state cancelled with
  | stop => exact always_stop
  | item answer next ih =>
    cases answer with
    | error e => exact .item (hE e h.1) fun cancelled => ih _ (h.2 cancelled) hs
    | ok a =>
      obtain ⟨hkept, hanswer⟩ := hstep state a hs h.1
      rw [Pull.transduce]
      rcases hres : step state a with ⟨state', _ | answer⟩
      · rw [hres] at hkept
        exact ih _ (h.2 cancelled) hkept
      · rw [hres] at hkept hanswer
        exact .item (hanswer answer rfl) fun cancelled => ih _ (h.2 cancelled) hkept

end Pull

-- ---------------------------------------------------------------------------
-- Streams
-- ---------------------------------------------------------------------------

namespace Stream

theorem always_empty : (empty : Stream α).Always Q E := fun _ => Pull.always_stop

theorem always_ofAnswers {l : List (Except QueryError α)} (h : ∀ answer ∈ l, Outcome answer Q E) :
    (ofAnswers l).Always Q E := fun _ => Pull.always_ofAnswers h

theorem Always.mono {P : α → Prop} {stream : Stream α} (h : stream.Always Q E)
    (hQ : ∀ a, Q a → P a) (hE : ∀ e, E e → F e) : stream.Always P F :=
  fun cancelled => (h cancelled).mono hQ hE

theorem Always.guard {stream : Stream α} (h : stream.Always Q E) (hc : E .cancelled) :
    stream.guard.Always Q E := by
  intro cancelled
  cases cancelled with
  | true => exact Pull.always_failed hc
  | false => exact (h false).guard hc

theorem Always.transduce {step : σ → α → σ × Option (Except QueryError β)} {stream : Stream α}
    (Inv : σ → Prop) (h : stream.Always Q E) (hE : ∀ e, E e → F e)
    (hstep : ∀ state a, Inv state → Q a → Inv (step state a).1 ∧
      ∀ answer, (step state a).2 = some answer → Outcome answer R F) (hs : Inv state) :
    (stream.transduce step state).Always R F :=
  fun cancelled => (h cancelled).transduce Inv hE hstep hs

theorem Always.filterMap {f : α → Option (Except QueryError β)} {stream : Stream α}
    (h : stream.Always Q E) (hE : ∀ e, E e → F e)
    (hf : ∀ a, Q a → ∀ answer, f a = some answer → Outcome answer R F) :
    (stream.filterMap f).Always R F :=
  h.transduce (fun _ => True) hE (fun _ a _ ha => ⟨trivial, hf a ha⟩) trivial

end Stream

end SeriesQuery
