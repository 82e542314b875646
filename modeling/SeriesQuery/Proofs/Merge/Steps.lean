import SeriesQuery.Proofs.Merge.Rows

/-!
# What a step of a merge does

A step of any kind of join pulls the inputs in turn up to the first error. Then
it answers the error, or takes the heads at a key for a row, or drops those
before a key, or ends. What is kept of the inputs by any number of steps follows
from what their pulls keep.
-/

namespace SeriesQuery

/-- The pulls of one input: for any sample, or for one at a key or behind it. -/
inductive Cursor.Pulled (cancelled : Bool) (input : Nat) (cursor : Cursor α) :
    Cursor α × Option QueryError → Prop where
  | fill : Pulled cancelled input cursor (cursor.fill cancelled input)
  | seek : Pulled cancelled input cursor (cursor.seek cancelled input key)

namespace Merge

variable {cancelled : Bool}

inductive Pulled (cancelled : Bool) :
    Nat → List (Cursor α) → List (Cursor α) × Option QueryError → Prop where
  | nil : Pulled cancelled input [] ([], none)
  | next {cursor pulled : Cursor α} : cursor.Pulled cancelled input (pulled, none) →
      Pulled cancelled (input + 1) rest (others, error) →
      Pulled cancelled input (cursor :: rest) (pulled :: others, error)
  | failed {cursor pulled : Cursor α} : cursor.Pulled cancelled input (pulled, some e) →
      Pulled cancelled input (cursor :: rest) (pulled :: rest, some e)

theorem fillAll_pulled (cancelled : Bool) (input : Nat) (cursors : List (Cursor α)) :
    Pulled cancelled input cursors (fillAll cancelled input cursors) := by
  induction cursors generalizing input with
  | nil => exact .nil
  | cons cursor rest ih =>
    have hfill : cursor.Pulled cancelled input (cursor.fill cancelled input) := .fill
    rw [fillAll]
    rcases hf : cursor.fill cancelled input with ⟨filled, _ | e⟩
    · exact .next (hf ▸ hfill) (ih (input + 1))
    · exact .failed (hf ▸ hfill)

theorem seekAll_pulled (cancelled : Bool) (key : Instant) (input : Nat)
    (cursors : List (Cursor α)) :
    Pulled cancelled input cursors (seekAll cancelled key input cursors) := by
  induction cursors generalizing input with
  | nil => exact .nil
  | cons cursor rest ih =>
    have hseek : cursor.Pulled cancelled input (cursor.seek cancelled input key) := .seek
    rw [seekAll]
    rcases hs : cursor.seek cancelled input key with ⟨sought, _ | e⟩
    · exact .next (hs ▸ hseek) (ih (input + 1))
    · exact .failed (hs ▸ hseek)

/-- All that a step can do. The inputs that no row can lack wait for the key of a
row. -/
inductive Steps (cancelled : Bool) (merge : Merge α) : Step α → Prop where
  | stop : Steps cancelled merge .stop
  | error : Pulled cancelled 0 merge.cursors (pulled, some e) →
      Steps cancelled merge (.answer (.error e) ⟨merge.kind, pulled⟩)
  | row : Pulled cancelled 0 merge.cursors (pulled, none) →
      (∀ index cursor, merge.kind.isOptional index = false → pulled[index]? = some cursor →
        cursor.key? = some key) →
      Steps cancelled merge (row merge.kind key pulled)
  | again : Pulled cancelled 0 merge.cursors (pulled, none) →
      Steps cancelled merge (.again ⟨merge.kind, pulled.map (Cursor.dropBefore key)⟩)

theorem stepInner_steps (cursors : List (Cursor α)) :
    Steps cancelled ⟨.inner, cursors⟩ (stepInner cancelled cursors) := by
  have hfill := fillAll_pulled cancelled 0 cursors
  rw [stepInner]
  rcases hf : fillAll cancelled 0 cursors with ⟨filled, _ | e⟩
  · rw [hf] at hfill
    cases hkey : (allKeys filled).bind List.max? with
    | none => simpa only [hkey] using .stop
    | some key =>
      simp only [hkey]
      split
      · exact .again hfill
      · next hnone =>
        have hall := key?_of_none_before hkey hnone
        exact .row hfill fun _ cursor _ hcursor => hall cursor (List.mem_of_getElem? hcursor)
  · exact .error (hf ▸ hfill)

theorem stepLeft_steps (cursors : List (Cursor α)) :
    Steps cancelled ⟨.left, cursors⟩ (stepLeft cancelled cursors) := by
  cases cursors with
  | nil => exact .stop
  | cons first others =>
    have hfirst : first.Pulled cancelled 0 (first.fill cancelled 0) := .fill
    rw [stepLeft]
    rcases hf : first.fill cancelled 0 with ⟨filled, _ | e⟩
    · rw [hf] at hfirst
      cases hkey : filled.key? with
      | none => simpa only [hkey] using .stop
      | some key =>
        have hothers := seekAll_pulled cancelled key 1 others
        simp only [hkey]
        rcases hs : seekAll cancelled key 1 others with ⟨sought, _ | e⟩
        · refine .row (.next hfirst (hs ▸ hothers)) fun index cursor hrequired hcursor => ?_
          cases index with
          | zero =>
            cases hcursor
            exact hkey
          | succ index => cases hrequired
        · exact .error (.next hfirst (hs ▸ hothers))
    · exact .error (.failed (hf ▸ hfirst))

theorem stepFull_steps (cursors : List (Cursor α)) :
    Steps cancelled ⟨.full, cursors⟩ (stepFull cancelled cursors) := by
  have hfill := fillAll_pulled cancelled 0 cursors
  rw [stepFull]
  rcases hf : fillAll cancelled 0 cursors with ⟨filled, _ | e⟩
  · rw [hf] at hfill
    cases hkey : (filled.filterMap Cursor.key?).min? with
    | none => simpa only [hkey] using .stop
    | some key =>
      simp only [hkey]
      refine .row hfill fun index cursor hrequired _ => ?_
      cases hrequired
  · exact .error (hf ▸ hfill)

theorem step_steps (cancelled : Bool) (merge : Merge α) :
    Steps cancelled merge (merge.step cancelled) := by
  obtain ⟨kind, cursors⟩ := merge
  cases kind with
  | inner => exact stepInner_steps cursors
  | left => exact stepLeft_steps cursors
  | full => exact stepFull_steps cursors

end Merge

end SeriesQuery
