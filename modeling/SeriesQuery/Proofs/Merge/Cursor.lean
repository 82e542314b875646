import SeriesQuery.Proofs.Merge.Relation
import SeriesQuery.Proofs.Stream.Answers

/-!
# What is left of an input of a merge

A cursor holds the samples that a merge will still see of its input: the one at
its head, and what is left of the answers of its stream without errors and
without samples that go back behind the last one kept. Pulling the input keeps
what the cursor holds, or drops samples before a key from it, and where it does
not end in an error the first of them waits at the head.
-/

namespace SeriesQuery

/-- The samples of an input in order: errors are left out, and samples that go
back behind the last one kept. -/
def cleaned : Option Instant → List (Except ε (Sample α)) → List (Sample α)
  | _, [] => []
  | last, .error _ :: rest => cleaned last rest
  | last, .ok sample :: rest =>
    if last.all (· ≤ sample.timestamp) then sample :: cleaned (some sample.timestamp) rest
    else cleaned last rest

theorem cleaned_inOrder (last : Option Instant) (answers : List (Except ε (Sample α))) :
    InOrder (cleaned last answers) ∧
      ∀ s ∈ cleaned last answers, last.all (· ≤ s.timestamp) = true := by
  fun_induction cleaned last answers with
  | case1 => exact ⟨.nil, by simp⟩
  | case2 last e rest ih => exact ih
  | case3 last sample rest hlast ih =>
    simp only [Option.all_some, decide_eq_true_eq] at ih
    refine ⟨List.pairwise_cons.mpr ⟨ih.2, ih.1⟩, fun s hs => ?_⟩
    rcases List.mem_cons.mp hs with rfl | hs
    · exact hlast
    · have hle := ih.2 s hs
      cases last with
      | none => rfl
      | some t =>
        simp only [Option.all_some, decide_eq_true_eq] at hlast ⊢
        exact Std.le_trans hlast hle
  | case4 last sample rest _ ih => exact ih

theorem cleaned_map_ok {items : List (Sample α)} (ho : InOrder items)
    (hl : ∀ s ∈ items, last.all (· ≤ s.timestamp) = true) :
    cleaned last (items.map .ok : List (Except ε (Sample α))) = items := by
  induction items generalizing last with
  | nil => rfl
  | cons sample rest ih =>
    obtain ⟨hle, hrest⟩ := List.pairwise_cons.mp ho
    rw [List.map_cons, cleaned, if_pos (hl sample List.mem_cons_self),
      ih hrest fun s hs => by simpa using hle s hs]

namespace Cursor

variable {last : Option Instant}

theorem goesBack_eq_none_iff : goesBack last t = none ↔ last.all (· ≤ t) = true := by
  cases last with
  | none => simp [goesBack]
  | some s => simp [goesBack, Option.filter, Std.not_lt]

theorem cleaned_cons_of_goesBack {rest : List (Except ε (Sample α))}
    (h : goesBack last sample.timestamp = none) :
    cleaned last (.ok sample :: rest) = sample :: cleaned (some sample.timestamp) rest := by
  rw [cleaned, if_pos (goesBack_eq_none_iff.mp h)]

theorem cleaned_cons_of_goesBack_some {rest : List (Except ε (Sample α))}
    (h : goesBack last sample.timestamp = some t) :
    cleaned last (.ok sample :: rest) = cleaned last rest := by
  have hnot : ¬ last.all (· ≤ sample.timestamp) = true :=
    fun hall => by simp [goesBack_eq_none_iff.mpr hall] at h
  rw [cleaned, if_neg hnot]

/-- The samples that a merge will still see of an input. -/
structure Holds (cursor : Cursor α) (items : List (Sample α)) : Prop where
  items_eq : items = cursor.head.toList ++ cleaned cursor.last cursor.stream.answers
  head_last : ∀ s, cursor.head = some s → cursor.last = some s.timestamp

/-- Nothing of the input will be left out. -/
def Clean (cursor : Cursor α) : Prop :=
  cursor.stream.answers = (cleaned cursor.last cursor.stream.answers).map .ok

theorem holds_of_head {cursor : Cursor α} (hh : cursor.head = none) :
    cursor.Holds (cleaned cursor.last cursor.stream.answers) :=
  ⟨by simp [hh], by simp [hh]⟩

theorem holds_ofStream (stream : Stream (Sample α)) :
    (ofStream stream).Holds (cleaned none stream.answers) :=
  holds_of_head rfl

theorem Holds.inOrder {cursor : Cursor α} (h : cursor.Holds items) : InOrder items := by
  have hrest := cleaned_inOrder cursor.last cursor.stream.answers
  cases hhead : cursor.head with
  | none => simpa [h.items_eq, hhead] using hrest.1
  | some s =>
    rw [h.items_eq, hhead]
    refine List.pairwise_cons.mpr ⟨fun b hb => ?_, hrest.1⟩
    simpa [h.head_last s hhead] using hrest.2 b hb

structure Loaded (cursor : Cursor α) (items : List (Sample α)) : Prop where
  holds : cursor.Holds items
  head_eq : cursor.head = items.head?

-- ---------------------------------------------------------------------------
-- Pulling an input
-- ---------------------------------------------------------------------------

/-- What a pull of an input leaves: the items are held and nothing that was clean
fails; without an error the first of them waits at the head. -/
structure Leaves (wasClean : Prop) (items : List (Sample α))
    (result : Cursor α × Option QueryError) : Prop where
  holds : result.1.Holds items
  loaded : result.2 = none → result.1.Loaded items
  clean : wasClean → result.2 = none ∧ result.1.Clean

theorem leaves_loaded {cursor : Cursor α} (h : cursor.Loaded items)
    (hc : wasClean → cursor.Clean) : Leaves wasClean items (cursor, none) :=
  ⟨h.holds, fun _ => h, fun hwas => ⟨rfl, hc hwas⟩⟩

theorem leaves_failed {cursor : Cursor α} (h : cursor.Holds items) (hd : ¬ wasClean) :
    Leaves wasClean items (cursor, some e) :=
  ⟨h, by simp, fun hwas => absurd hwas hd⟩

theorem Leaves.not_clean {cursor : Cursor α} (h : Leaves wasClean items (cursor, some e)) :
    ¬ wasClean := by
  intro hwas
  have hnone := (h.clean hwas).1
  cases hnone

theorem load_leaves (input : Nat) (last : Option Instant) (pull : Pull (Sample α)) :
    Leaves (pull.answers = (cleaned last pull.answers).map .ok) (cleaned last pull.answers)
      (load input last pull) := by
  cases pull with
  | stop => exact leaves_loaded ⟨holds_of_head rfl, rfl⟩ fun _ => rfl
  | item answer next =>
    cases answer with
    | error e =>
      refine leaves_failed (holds_of_head rfl) ?_
      simp only [Pull.answers_item, cleaned]
      cases cleaned last (next false).answers <;> simp
    | ok sample =>
      cases hback : goesBack last sample.timestamp with
      | some t =>
        simp only [load, hback, Pull.answers_item, cleaned_cons_of_goesBack_some hback]
        refine leaves_failed (holds_of_head rfl) fun h => ?_
        -- a sample that goes back is not the first of those kept
        have hall := (cleaned_inOrder last (next false).answers).2
        cases hc : cleaned last (next false).answers with
        | nil => simp [hc] at h
        | cons first rest =>
          simp only [hc, List.map_cons, List.cons.injEq, Except.ok.injEq] at h
          have hle := hall first (hc ▸ List.mem_cons_self)
          rw [← h.1, ← goesBack_eq_none_iff, hback] at hle
          cases hle
      | none =>
        simp only [load, hback, Pull.answers_item, cleaned_cons_of_goesBack hback]
        refine leaves_loaded ⟨⟨rfl, fun s h => ?_⟩, rfl⟩ fun h => (List.cons.inj h).2
        cases h
        rfl

theorem Holds.loaded {cursor : Cursor α} (h : cursor.Holds items)
    (hh : cursor.head = some sample) : cursor.Loaded items :=
  ⟨h, by simp [h.items_eq, hh]⟩

theorem fill_leaves {cursor : Cursor α} (input : Nat) (h : cursor.Holds items) :
    Leaves cursor.Clean items (cursor.fill false input) := by
  unfold fill
  split
  · next sample hhead => exact leaves_loaded (h.loaded hhead) id
  · next hhead =>
    have hitems := h.items_eq
    rw [hhead, Option.toList_none, List.nil_append] at hitems
    exact hitems ▸ load_leaves input cursor.last (cursor.stream false)

theorem seekFrom_leaves (key : Instant) (input : Nat) (last : Option Instant)
    (pull : Pull (Sample α)) :
    ∃ kept, Skips key (cleaned last pull.answers) kept ∧
      Leaves (pull.answers = (cleaned last pull.answers).map .ok) kept
        (seekFrom false input key last pull) ∧
      ((seekFrom false input key last pull).2 = none → ∀ s ∈ kept, key ≤ s.timestamp) := by
  induction pull generalizing last with
  | stop => exact ⟨[], .refl, load_leaves input last .stop, by simp⟩
  | item answer next ih =>
    cases answer with
    | error e =>
      exact ⟨_, .refl, load_leaves input last (.item (.error e) next), by simp [seekFrom]⟩
    | ok sample =>
      have hload := load_leaves input last (.item (.ok sample) next)
      cases hback : goesBack last sample.timestamp with
      | some t =>
        simp only [load, hback] at hload
        simp only [seekFrom, hback]
        exact ⟨_, .refl, hload, by simp⟩
      | none =>
        simp only [load, hback] at hload
        simp only [seekFrom, hback]
        split
        · next hlt =>
          obtain ⟨kept, hskips, hleaves, hkept⟩ := ih false (some sample.timestamp)
          rw [Pull.answers_item, cleaned_cons_of_goesBack hback]
          exact ⟨kept, hskips.cons hlt,
            ⟨hleaves.holds, hleaves.loaded, fun h => hleaves.clean (List.cons.inj h).2⟩, hkept⟩
        · next hge =>
          refine ⟨_, .refl, hload, fun _ s hs => ?_⟩
          have hord := hload.holds.inOrder
          rw [Pull.answers_item, cleaned_cons_of_goesBack hback] at hs hord
          exact Std.le_trans (Std.not_lt.mp hge) (hord.head_le s hs)

theorem seek_leaves {cursor : Cursor α} (key : Instant) (input : Nat) (h : cursor.Holds items) :
    ∃ kept, Skips key items kept ∧
      Leaves cursor.Clean kept (cursor.seek false input key) ∧
      ((cursor.seek false input key).2 = none → ∀ s ∈ kept, key ≤ s.timestamp) := by
  obtain ⟨kept, hskips, hleaves, hkept⟩ :=
    seekFrom_leaves key input cursor.last (cursor.stream false)
  have hitems := h.items_eq
  unfold seek
  split
  · next sample hhead =>
    rw [hhead] at hitems
    split
    · next hlt => exact ⟨kept, hitems ▸ hskips.cons hlt, hleaves, hkept⟩
    · next hge =>
      refine ⟨items, .refl, leaves_loaded (h.loaded hhead) id, fun _ s hs => ?_⟩
      have hord := h.inOrder
      rw [hitems] at hs hord
      exact Std.le_trans (Std.not_lt.mp hge) (InOrder.head_le hord s hs)
  · next hhead =>
    rw [hhead, Option.toList_none, List.nil_append] at hitems
    exact ⟨kept, hitems ▸ hskips, hleaves, hkept⟩

end Cursor

end SeriesQuery
