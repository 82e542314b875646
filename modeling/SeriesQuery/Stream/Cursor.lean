import SeriesQuery.Stream.Basic

/-!
# Cursors

One input of a merge: its stream and the sample that waits at its head. A sample whose timestamp
goes back is an error and is lost; the next pull goes on behind it.
-/

namespace SeriesQuery

structure Cursor (α : Type) where
  stream : Stream (Sample α)
  head : Option (Sample α)
  /-- The timestamp of the last sample that was at the head. -/
  last : Option Instant

namespace Cursor

variable {α : Type}

def ofStream (stream : Stream (Sample α)) : Cursor α := ⟨stream, none, none⟩

def key? (cursor : Cursor α) : Option Instant := cursor.head.map (·.timestamp)

def goesBack (last : Option Instant) (timestamp : Instant) : Option Instant :=
  last.filter (timestamp < ·)

/-- What a pull of the input leaves: the sample is at the head unless it goes back. -/
def load (input : Nat) (last : Option Instant) : Pull (Sample α) → Cursor α × Option QueryError
  | .stop => (⟨Stream.empty, none, last⟩, none)
  | .item (.error e) next => (⟨next, none, last⟩, some e)
  | .item (.ok sample) next =>
    match goesBack last sample.timestamp with
    | some previous =>
      (⟨next, none, last⟩, some (.eval (.unsorted input previous sample.timestamp)))
    | none => (⟨next, some sample, some sample.timestamp⟩, none)

def fill (cancelled : Bool) (input : Nat) (cursor : Cursor α) : Cursor α × Option QueryError :=
  match cursor.head with
  | some _ => (cursor, none)
  | none => load input cursor.last (cursor.stream cancelled)

/-- Pulls the input until a sample at or after the key waits at the head, starting with the
answer to a pull. -/
def seekFrom (cancelled : Bool) (input : Nat) (key : Instant) (last : Option Instant) :
    Pull (Sample α) → Cursor α × Option QueryError
  | .item (.ok sample) next =>
    match goesBack last sample.timestamp with
    | some previous =>
      (⟨next, none, last⟩, some (.eval (.unsorted input previous sample.timestamp)))
    | none =>
      if sample.timestamp < key then
        seekFrom cancelled input key (some sample.timestamp) (next cancelled)
      else (⟨next, some sample, some sample.timestamp⟩, none)
  | .item (.error e) next => (⟨next, none, last⟩, some e)
  | .stop => (⟨Stream.empty, none, last⟩, none)

def seek (cancelled : Bool) (input : Nat) (key : Instant) (cursor : Cursor α) :
    Cursor α × Option QueryError :=
  match cursor.head with
  | some sample =>
    if sample.timestamp < key then
      seekFrom cancelled input key cursor.last (cursor.stream cancelled)
    else (cursor, none)
  | none => seekFrom cancelled input key cursor.last (cursor.stream cancelled)

def dropBefore (key : Instant) (cursor : Cursor α) : Cursor α :=
  if cursor.key?.any (· < key) then { cursor with head := none } else cursor

def valueAt (key : Instant) (cursor : Cursor α) : Option α :=
  if cursor.key? = some key then cursor.head.map (·.value) else none

def passBy (key : Instant) (cursor : Cursor α) : Cursor α :=
  if cursor.key? = some key then { cursor with head := none } else cursor

/-! ## Progress -/

/-- Twice what the stream can still answer, and the head. -/
def size (cursor : Cursor α) : Nat :=
  2 * cursor.stream.depth + (if cursor.head.isSome then 1 else 0)

theorem size_load (input : Nat) (last : Option Instant) (stream : Stream (Sample α))
    (cancelled : Bool) :
    (load input last (stream cancelled)).1.size ≤ 2 * stream.depth ∧
      ((load input last (stream cancelled)).2.isSome →
        (load input last (stream cancelled)).1.size < 2 * stream.depth) := by
  generalize pulled : stream cancelled = pull
  cases pull with
  | stop => simp [load, size]
  | item answer next =>
    have shorter := Stream.depth_next_lt pulled
    cases answer with
    | error e => simp [load, size]; omega
    | ok sample =>
      rw [load]
      cases goesBack last sample.timestamp <;> simp [size] <;> omega

theorem size_fill (cancelled : Bool) (input : Nat) (cursor : Cursor α) :
    (cursor.fill cancelled input).1.size ≤ cursor.size ∧
      ((cursor.fill cancelled input).2.isSome →
        (cursor.fill cancelled input).1.size < cursor.size) := by
  unfold fill
  split
  · simp
  · next empty =>
    have := size_load input cursor.last cursor.stream cancelled
    simp only [size, empty] at *
    simpa using this

theorem size_seekFrom (cancelled : Bool) (input : Nat) (key : Instant) (pull : Pull (Sample α))
    (last : Option Instant) (stream : Stream (Sample α)) (pulled : stream cancelled = pull) :
    (seekFrom cancelled input key last pull).1.size ≤ 2 * stream.depth ∧
      ((seekFrom cancelled input key last pull).2.isSome →
        (seekFrom cancelled input key last pull).1.size < 2 * stream.depth) := by
  induction pull generalizing last stream with
  | stop => simp [seekFrom, size]
  | item answer next ih =>
    have shorter := Stream.depth_next_lt pulled
    cases answer with
    | error e => simp [seekFrom, size]; omega
    | ok sample =>
      rw [seekFrom]
      split
      · simp [size]; omega
      · split
        · have := ih cancelled (some sample.timestamp) next rfl
          omega
        · simp [size]; omega

theorem size_seek (cancelled : Bool) (input : Nat) (key : Instant) (cursor : Cursor α) :
    (cursor.seek cancelled input key).1.size ≤ cursor.size ∧
      ((cursor.seek cancelled input key).2.isSome →
        (cursor.seek cancelled input key).1.size < cursor.size) := by
  have sought := size_seekFrom cancelled input key _ cursor.last cursor.stream rfl
  have stream_le : 2 * cursor.stream.depth ≤ cursor.size := Nat.le_add_right ..
  have shorter := And.intro (Nat.le_trans sought.1 stream_le)
    fun failed => Nat.lt_of_lt_of_le (sought.2 failed) stream_le
  unfold seek
  split
  · split
    · exact shorter
    · simp
  · exact shorter

theorem size_dropBefore (key : Instant) (cursor : Cursor α) :
    (cursor.dropBefore key).size ≤ cursor.size ∧
      (cursor.key?.any (· < key) → (cursor.dropBefore key).size < cursor.size) := by
  unfold dropBefore
  split
  · next below =>
    cases waiting : cursor.head with
    | none => simp [key?, waiting] at below
    | some sample => simp [size, waiting]
  · simp_all

theorem size_passBy (key : Instant) (cursor : Cursor α) :
    (cursor.passBy key).size ≤ cursor.size ∧
      (cursor.key? = some key → (cursor.passBy key).size < cursor.size) := by
  unfold passBy
  split
  · next at_key =>
    cases waiting : cursor.head with
    | none => simp [key?, waiting] at at_key
    | some sample => simp [size, waiting]
  · simp_all

end Cursor

end SeriesQuery
