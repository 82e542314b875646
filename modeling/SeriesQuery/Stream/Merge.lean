import SeriesQuery.Stream.Cursor

/-!
# Merge joins

Several inputs, each in the order of its timestamps, are joined on equal timestamps: the heads of
the inputs are compared, and those at the chosen timestamp make up a row with one slot for each
input. Equal timestamps within an input are paired by their positions. An error of an input is
answered where it turns up; the samples loaded by then are kept, so pulling can go on.
-/

namespace SeriesQuery

/-- Which timestamps a join answers. -/
inductive JoinKind where
  | inner
  | left
  | full
deriving DecidableEq, Repr

/-- Whether rows can lack a sample of the input with an index. -/
def JoinKind.isOptional (kind : JoinKind) (index : Nat) : Bool :=
  match kind with
  | .inner => false
  | .left => index != 0
  | .full => true

instance : Std.MaxEqOr Instant where
  max_eq_or a b := by
    show (if a ≤ b then b else a) = a ∨ (if a ≤ b then b else a) = b
    split <;> simp

instance : Std.MinEqOr Instant where
  min_eq_or a b := by
    show (if a ≤ b then a else b) = a ∨ (if a ≤ b then a else b) = b
    split <;> simp

abbrev Slots (α : Type) := List (Option α)

structure Merge (α : Type) where
  kind : JoinKind
  cursors : List (Cursor α)

namespace Merge

variable {α : Type}

def ofStreams (kind : JoinKind) (streams : List (Stream (Sample α))) : Merge α :=
  ⟨kind, streams.map Cursor.ofStream⟩

def fillAll (cancelled : Bool) : Nat → List (Cursor α) → List (Cursor α) × Option QueryError
  | _, [] => ([], none)
  | input, cursor :: rest =>
    match cursor.fill cancelled input with
    | (cursor, some e) => (cursor :: rest, some e)
    | (cursor, none) =>
      let (filled, error) := fillAll cancelled (input + 1) rest
      (cursor :: filled, error)

def seekAll (cancelled : Bool) (key : Instant) :
    Nat → List (Cursor α) → List (Cursor α) × Option QueryError
  | _, [] => ([], none)
  | input, cursor :: rest =>
    match cursor.seek cancelled input key with
    | (cursor, some e) => (cursor :: rest, some e)
    | (cursor, none) =>
      let (sought, error) := seekAll cancelled key (input + 1) rest
      (cursor :: sought, error)

def allKeys (cursors : List (Cursor α)) : Option (List Instant) :=
  cursors.mapM Cursor.key?

inductive Step (α : Type) where
  | stop
  | answer (answer : Except QueryError (Sample (Slots α))) (rest : Merge α)
  /-- Nothing yet: the step is taken again. -/
  | again (rest : Merge α)

def row (kind : JoinKind) (key : Instant) (cursors : List (Cursor α)) : Step α :=
  .answer (.ok ⟨key, cursors.map (Cursor.valueAt key)⟩) ⟨kind, cursors.map (Cursor.passBy key)⟩

/-- All heads wait for the latest of them; those before it are dropped. -/
def stepInner (cancelled : Bool) (cursors : List (Cursor α)) : Step α :=
  match fillAll cancelled 0 cursors with
  | (cursors, some e) => .answer (.error e) ⟨.inner, cursors⟩
  | (cursors, none) =>
    match (allKeys cursors).bind List.max? with
    | none => .stop
    | some key =>
      if cursors.any fun cursor => cursor.key?.any (· < key) then
        .again ⟨.inner, cursors.map (Cursor.dropBefore key)⟩
      else row .inner key cursors

/-- The first input gives the key, the others are brought to it. -/
def stepLeft (cancelled : Bool) : List (Cursor α) → Step α
  | [] => .stop
  | first :: others =>
    match first.fill cancelled 0 with
    | (first, some e) => .answer (.error e) ⟨.left, first :: others⟩
    | (first, none) =>
      match first.key? with
      | none => .stop
      | some key =>
        match seekAll cancelled key 1 others with
        | (others, some e) => .answer (.error e) ⟨.left, first :: others⟩
        | (others, none) => row .left key (first :: others)

/-- The earliest head gives the key. -/
def stepFull (cancelled : Bool) (cursors : List (Cursor α)) : Step α :=
  match fillAll cancelled 0 cursors with
  | (cursors, some e) => .answer (.error e) ⟨.full, cursors⟩
  | (cursors, none) =>
    match (cursors.filterMap Cursor.key?).min? with
    | none => .stop
    | some key => row .full key cursors

def step (cancelled : Bool) (merge : Merge α) : Step α :=
  match merge.kind with
  | .inner => stepInner cancelled merge.cursors
  | .left => stepLeft cancelled merge.cursors
  | .full => stepFull cancelled merge.cursors

/-! ## Progress -/

def sizeAll : List (Cursor α) → Nat
  | [] => 0
  | cursor :: rest => cursor.size + sizeAll rest

/-- What the inputs can still answer. -/
def size (merge : Merge α) : Nat := sizeAll merge.cursors

theorem size_fillAll (cancelled : Bool) (kind : JoinKind) (input : Nat)
    (cursors : List (Cursor α)) :
    size ⟨kind, (fillAll cancelled input cursors).1⟩ ≤ size ⟨kind, cursors⟩ ∧
      ((fillAll cancelled input cursors).2.isSome →
        size ⟨kind, (fillAll cancelled input cursors).1⟩ < size ⟨kind, cursors⟩) := by
  induction cursors generalizing input with
  | nil => simp [fillAll, size]
  | cons cursor rest ih =>
    have filled := Cursor.size_fill cancelled input cursor
    have later := ih (input + 1)
    rw [fillAll]
    rcases fill : cursor.fill cancelled input with ⟨first, _ | e⟩
    · simp only [size, sizeAll, fill] at *
      exact ⟨by omega, fun failed => by have := later.2 failed; omega⟩
    · simp only [size, sizeAll, fill] at *
      have := filled.2 rfl
      exact ⟨by omega, fun _ => by omega⟩

theorem size_seekAll (cancelled : Bool) (kind : JoinKind) (key : Instant) (input : Nat)
    (cursors : List (Cursor α)) :
    size ⟨kind, (seekAll cancelled key input cursors).1⟩ ≤ size ⟨kind, cursors⟩ ∧
      ((seekAll cancelled key input cursors).2.isSome →
        size ⟨kind, (seekAll cancelled key input cursors).1⟩ < size ⟨kind, cursors⟩) := by
  induction cursors generalizing input with
  | nil => simp [seekAll, size]
  | cons cursor rest ih =>
    have sought := Cursor.size_seek cancelled input key cursor
    have later := ih (input + 1)
    rw [seekAll]
    rcases seek : cursor.seek cancelled input key with ⟨first, _ | e⟩
    · simp only [size, sizeAll, seek] at *
      exact ⟨by omega, fun failed => by have := later.2 failed; omega⟩
    · simp only [size, sizeAll, seek] at *
      have := sought.2 rfl
      exact ⟨by omega, fun _ => by omega⟩

theorem size_map_lt {kind : JoinKind} {change : Cursor α → Cursor α} {cursors : List (Cursor α)}
    (all : ∀ cursor, (change cursor).size ≤ cursor.size)
    (one : ∃ cursor ∈ cursors, (change cursor).size < cursor.size) :
    size ⟨kind, cursors.map change⟩ < size ⟨kind, cursors⟩ := by
  induction cursors with
  | nil => simp at one
  | cons head rest ih =>
    have rest_le : size ⟨kind, rest.map change⟩ ≤ size ⟨kind, rest⟩ := by
      clear ih one
      induction rest with
      | nil => simp
      | cons next rest ih =>
        have := all next
        simp only [size, sizeAll, List.map_cons] at *
        omega
    have head_le := all head
    obtain ⟨cursor, member, less⟩ := one
    rcases List.mem_cons.1 member with rfl | member
    · simp only [size, sizeAll, List.map_cons] at *
      omega
    · have := ih ⟨cursor, member, less⟩
      simp only [size, sizeAll, List.map_cons] at *
      omega

theorem size_passBy_lt {kind : JoinKind} {key : Instant} {cursors : List (Cursor α)}
    (waiting : ∃ cursor ∈ cursors, cursor.key? = some key) :
    size ⟨kind, cursors.map (Cursor.passBy key)⟩ < size ⟨kind, cursors⟩ := by
  obtain ⟨cursor, member, at_key⟩ := waiting
  exact size_map_lt (fun cursor => (Cursor.size_passBy key cursor).1)
    ⟨cursor, member, (Cursor.size_passBy key cursor).2 at_key⟩

theorem size_dropBefore_lt {kind : JoinKind} {key : Instant} {cursors : List (Cursor α)}
    (below : cursors.any fun cursor => cursor.key?.any (· < key)) :
    size ⟨kind, cursors.map (Cursor.dropBefore key)⟩ < size ⟨kind, cursors⟩ := by
  obtain ⟨cursor, member, before⟩ := List.any_eq_true.1 below
  exact size_map_lt (fun cursor => (Cursor.size_dropBefore key cursor).1)
    ⟨cursor, member, (Cursor.size_dropBefore key cursor).2 before⟩

theorem exists_of_mem_allKeys {cursors : List (Cursor α)} {keys : List Instant} {key : Instant}
    (h : allKeys cursors = some keys) (member : key ∈ keys) :
    ∃ cursor ∈ cursors, cursor.key? = some key := by
  induction cursors generalizing keys with
  | nil => simp_all [allKeys]
  | cons cursor rest ih =>
    simp only [allKeys, List.mapM_cons, Option.pure_def, Option.bind_eq_bind,
      Option.bind_eq_some_iff, Option.some.injEq] at h
    obtain ⟨first, at_head, others, rest_keys, rfl⟩ := h
    rcases List.mem_cons.1 member with rfl | member
    · exact ⟨cursor, List.mem_cons_self, at_head⟩
    · obtain ⟨found, found_mem, found_key⟩ := ih rest_keys member
      exact ⟨found, List.mem_cons_of_mem _ found_mem, found_key⟩

def Step.rest? : Step α → Option (Merge α)
  | .stop => none
  | .answer _ rest => some rest
  | .again rest => some rest

theorem size_stepInner {cancelled : Bool} {cursors : List (Cursor α)} {rest : Merge α}
    (h : (stepInner cancelled cursors).rest? = some rest) : rest.size < size ⟨.inner, cursors⟩ := by
  have filled := size_fillAll cancelled .inner 0 cursors
  unfold stepInner at h
  rcases fill : fillAll cancelled 0 cursors with ⟨loaded, _ | e⟩
  · rw [fill] at h filled
    cases keys : (allKeys loaded).bind List.max? with
    | none => simp [keys, Step.rest?] at h
    | some key =>
      simp only [keys] at h
      obtain ⟨found, found_keys, is_max⟩ := Option.bind_eq_some_iff.1 keys
      have waiting := exists_of_mem_allKeys found_keys (List.max?_mem is_max)
      split at h
      · next below =>
        cases h
        exact Nat.lt_of_lt_of_le (size_dropBefore_lt below) filled.1
      · cases h
        exact Nat.lt_of_lt_of_le (size_passBy_lt waiting) filled.1
  · rw [fill] at h filled
    cases h
    exact filled.2 rfl

theorem size_stepLeft {cancelled : Bool} {cursors : List (Cursor α)} {rest : Merge α}
    (h : (stepLeft cancelled cursors).rest? = some rest) : rest.size < size ⟨.left, cursors⟩ := by
  cases cursors with
  | nil => simp [stepLeft, Step.rest?] at h
  | cons first others =>
    have filled := Cursor.size_fill cancelled 0 first
    rw [stepLeft] at h
    rcases fill : first.fill cancelled 0 with ⟨loaded, _ | e⟩
    · rw [fill] at h filled
      cases keys : loaded.key? with
      | none => simp [keys, Step.rest?] at h
      | some key =>
        simp only [keys] at h
        have sought := size_seekAll cancelled .left key 1 others
        rcases seek : seekAll cancelled key 1 others with ⟨brought, _ | e⟩
        · rw [seek] at h sought
          cases h
          have passed : size ⟨.left, (loaded :: brought).map (Cursor.passBy key)⟩ <
              size ⟨.left, loaded :: brought⟩ :=
            size_passBy_lt ⟨loaded, List.mem_cons_self, keys⟩
          refine Nat.lt_of_lt_of_le passed ?_
          simp only [size, sizeAll, List.map_cons] at *
          omega
        · rw [seek] at h sought
          cases h
          have := sought.2 rfl
          simp only [size, sizeAll] at *
          omega
    · rw [fill] at h filled
      cases h
      have := filled.2 rfl
      simp only [size, sizeAll] at *
      omega

theorem size_stepFull {cancelled : Bool} {cursors : List (Cursor α)} {rest : Merge α}
    (h : (stepFull cancelled cursors).rest? = some rest) : rest.size < size ⟨.full, cursors⟩ := by
  have filled := size_fillAll cancelled .full 0 cursors
  unfold stepFull at h
  rcases fill : fillAll cancelled 0 cursors with ⟨loaded, _ | e⟩
  · rw [fill] at h filled
    cases keys : (loaded.filterMap Cursor.key?).min? with
    | none => simp [keys, Step.rest?] at h
    | some key =>
      simp only [keys] at h
      cases h
      have member := List.min?_mem keys
      obtain ⟨cursor, cursor_mem, at_key⟩ := List.mem_filterMap.1 member
      exact Nat.lt_of_lt_of_le (size_passBy_lt ⟨cursor, cursor_mem, at_key⟩) filled.1
  · rw [fill] at h filled
    cases h
    exact filled.2 rfl

/-- Each step uses up something of the inputs. -/
theorem size_step {cancelled : Bool} {merge rest : Merge α}
    (h : (merge.step cancelled).rest? = some rest) : rest.size < merge.size := by
  obtain ⟨kind, cursors⟩ := merge
  cases kind
  · exact size_stepInner h
  · exact size_stepLeft h
  · exact size_stepFull h

/-! ## The joined stream -/

def stream (merge : Merge α) : Stream (Sample (Slots α)) := fun cancelled =>
  match _taken : merge.step cancelled with
  | .stop => .stop
  | .answer answer rest => .item answer fun cancelled => rest.stream cancelled
  | .again rest => rest.stream cancelled
termination_by merge.size
decreasing_by
  all_goals exact size_step (by rw [_taken]; rfl)

end Merge

end SeriesQuery
