import SeriesQuery.Error.Query

/-!
# Streams

A stream is pulled: to each pull it answers one item or its end, and the end is final. The only
thing a puller tells it is whether the query has been cancelled by then. Streams are finite, so
what a whole run answers is computed by recursion on the stream.
-/

namespace SeriesQuery

/-- The answer to one pull together with the answers to all pulls after it. -/
inductive Pull (α : Type) where
  | stop
  | item (answer : Except QueryError α) (next : Bool → Pull α)

/-- What a stream answers to its first pull, cancelled by then or not. -/
abbrev Stream (α : Type) := Bool → Pull α

namespace Pull

def depth {α : Type} : Pull α → Nat
  | .stop => 0
  | .item _ next => max (next true).depth (next false).depth + 1

def ofAnswers {α : Type} : List (Except QueryError α) → Pull α
  | [] => .stop
  | answer :: rest => .item answer fun _ => ofAnswers rest

def failed {α : Type} (error : QueryError) : Pull α :=
  .item (.error error) fun _ => .stop

/-- Ends with the first error, and with an error of its own once the query is cancelled. -/
def guard {α : Type} : Pull α → Pull α
  | .stop => .stop
  | .item (.error e) _ => failed e
  | .item (.ok a) next => .item (.ok a) fun cancelled =>
    if cancelled then failed .cancelled else (next false).guard

/-- Runs a state machine over the items. A step answers something or takes the next item within
the same pull; errors pass by. -/
def transduce {α β σ : Type} (step : σ → α → σ × Option (Except QueryError β)) :
    σ → Bool → Pull α → Pull β
  | _, _, .stop => .stop
  | state, _, .item (.error e) next =>
    .item (.error e) fun cancelled => transduce step state cancelled (next cancelled)
  | state, cancelled, .item (.ok a) next =>
    match step state a with
    | (state, none) => transduce step state cancelled (next cancelled)
    | (state, some answer) =>
      .item answer fun cancelled => transduce step state cancelled (next cancelled)

def drain {α : Type} (cancelled : Bool) : Pull α → List α × Option QueryError × Stream α
  | .stop => ([], none, fun _ => .stop)
  | .item (.error e) next => ([], some e, next)
  | .item (.ok a) next =>
    let (items, rest) := (next cancelled).drain cancelled
    (a :: items, rest)

end Pull

namespace Stream

variable {α β σ : Type}

def empty : Stream α := fun _ => .stop

def ofAnswers (answers : List (Except QueryError α)) : Stream α :=
  fun _ => .ofAnswers answers

def depth (stream : Stream α) : Nat :=
  max (stream true).depth (stream false).depth

def guard (stream : Stream α) : Stream α := fun cancelled =>
  if cancelled then .failed .cancelled else (stream false).guard

def transduce (step : σ → α → σ × Option (Except QueryError β)) (start : σ) (stream : Stream α) :
    Stream β :=
  fun cancelled => (stream cancelled).transduce step start cancelled

def filterMap (answer : α → Option (Except QueryError β)) (stream : Stream α) : Stream β :=
  stream.transduce (fun _ a => ((), answer a)) ()

theorem depth_next_lt {stream : Stream α} {cancelled : Bool} {answer : Except QueryError α}
    {next : Stream α} (h : stream cancelled = .item answer next) : next.depth < stream.depth := by
  have below : next.depth + 1 = (stream cancelled).depth := by rw [h, Pull.depth, depth]
  have above : (stream cancelled).depth ≤ stream.depth := by
    cases cancelled
    · exact Nat.le_max_right ..
    · exact Nat.le_max_left ..
  omega

@[simp] theorem depth_empty : (empty : Stream α).depth = 0 := rfl

end Stream

end SeriesQuery
