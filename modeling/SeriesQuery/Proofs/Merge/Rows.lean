import SeriesQuery.Proofs.Merge.Cursor
import SeriesQuery.Proofs.Outcome
import SeriesQuery.Proofs.Store.StableSort

/-!
# A merge answers the rows of its join

What a merge will still answer depends on what its cursors hold. Each step
answers the first of the rows of the join of the held samples, or only drops
samples that no row has; what it leaves holds the samples that the other rows
are made of. A whole run therefore answers the rows of the join.
-/

namespace SeriesQuery

-- ---------------------------------------------------------------------------
-- Loaded cursors
-- ---------------------------------------------------------------------------

namespace Cursor

variable {cursor : Cursor α} {items : List (Sample α)} {key : Instant}

theorem Loaded.key?_eq (h : cursor.Loaded items) :
    cursor.key? = items.head?.map (·.timestamp) := by
  rw [key?, h.head_eq]

theorem Loaded.eq_nil (h : cursor.Loaded items) (hk : cursor.key? = none) : items = [] := by
  rw [h.key?_eq, Option.map_eq_none_iff] at hk
  exact List.head?_eq_none_iff.mp hk

theorem Loaded.valuesAt_ne_nil (h : cursor.Loaded items) (hk : cursor.key? = some key) :
    valuesAt key items ≠ [] := by
  cases items with
  | nil => simp [h.key?_eq] at hk
  | cons sample rest =>
    simp only [h.key?_eq, List.head?_cons, Option.map_some, Option.some.injEq] at hk
    rw [← hk, valuesAt_cons_self]
    exact List.cons_ne_nil _ _

theorem Loaded.key_le (h : cursor.Loaded items) (hk : ∀ k, cursor.key? = some k → key ≤ k) :
    ∀ s ∈ items, key ≤ s.timestamp := by
  cases items with
  | nil => simp
  | cons sample rest =>
    have hle := hk sample.timestamp (by rw [h.key?_eq]; rfl)
    exact fun s hs => Std.le_trans hle (h.holds.inOrder.head_le s hs)

theorem Loaded.valueAt_eq (h : cursor.Loaded items) (hk : ∀ s ∈ items, key ≤ s.timestamp) :
    cursor.valueAt key = (valuesAt key items).head? := by
  unfold valueAt
  rw [h.key?_eq, h.head_eq]
  cases items with
  | nil => rfl
  | cons sample rest =>
    simp only [List.head?_cons, Option.map_some, Option.some.injEq]
    split
    · next heq => rw [← heq, valuesAt_cons_self, List.head?_cons]
    · next hne =>
      have hlater : ∀ s ∈ sample :: rest, s.timestamp ≠ key := fun s hs heq =>
        hne (Std.le_antisymm (heq ▸ h.holds.inOrder.head_le s hs) (hk sample List.mem_cons_self))
      rw [valuesAt_eq_nil hlater, List.head?_nil]

theorem Loaded.passBy (h : cursor.Loaded items) : (cursor.passBy key).Holds (behind key items) := by
  have hitems := h.holds.items_eq
  unfold Cursor.passBy
  rw [h.key?_eq]
  cases items with
  | nil => exact h.holds
  | cons sample rest =>
    rw [h.head_eq] at hitems
    simp only [List.head?_cons, Option.map_some, Option.some.injEq, behind]
    split
    · rw [(List.cons.inj hitems).2]
      exact holds_of_head rfl
    · exact h.holds

theorem Loaded.dropBefore (h : cursor.Loaded items) (key : Instant) :
    ∃ kept, Skips key items kept ∧ (cursor.dropBefore key).Holds kept := by
  have hitems := h.holds.items_eq
  unfold Cursor.dropBefore
  rw [h.key?_eq]
  cases items with
  | nil => exact ⟨[], .refl, h.holds⟩
  | cons sample rest =>
    rw [h.head_eq] at hitems
    simp only [List.head?_cons, Option.map_some, Option.any_some, decide_eq_true_eq]
    split
    · next hlt =>
      refine ⟨rest, Skips.refl.cons hlt, ?_⟩
      rw [(List.cons.inj hitems).2]
      exact holds_of_head rfl
    · exact ⟨sample :: rest, .refl, h.holds⟩

theorem Clean.passBy (h : cursor.Clean) : (cursor.passBy key).Clean := by
  unfold Cursor.passBy
  split
  · exact h
  · exact h

theorem Clean.dropBefore (h : cursor.Clean) : (cursor.dropBefore key).Clean := by
  unfold Cursor.dropBefore
  split
  · exact h
  · exact h

end Cursor

namespace Merge

variable {kind : JoinKind} {cursors : List (Cursor α)} {inputs : List (List (Sample α))}

/-- The samples that a merge will still see of its inputs. -/
def Holds (merge : Merge α) (inputs : List (List (Sample α))) : Prop :=
  List.Forall₂ Cursor.Holds merge.cursors inputs

def Clean (merge : Merge α) : Prop := ∀ cursor ∈ merge.cursors, cursor.Clean

-- ---------------------------------------------------------------------------
-- Pulling the inputs
-- ---------------------------------------------------------------------------

/-- What pulls of several inputs leave: see `Cursor.Leaves`. -/
structure Leaves (wasClean : Prop) (inputs : List (List (Sample α)))
    (result : List (Cursor α) × Option QueryError) : Prop where
  holds : List.Forall₂ Cursor.Holds result.1 inputs
  loaded : result.2 = none → List.Forall₂ Cursor.Loaded result.1 inputs
  clean : wasClean → result.2 = none ∧ ∀ cursor ∈ result.1, cursor.Clean

theorem leaves_nil : Leaves wasClean ([] : List (List (Sample α))) ([], none) :=
  ⟨.nil, fun _ => .nil, fun _ => ⟨rfl, by simp⟩⟩

theorem leaves_cons {cursor : Cursor α} (h : Cursor.Leaves cleanFirst items (cursor, none))
    (hr : Leaves cleanRest inputs (cursors, error)) (hc : wasClean → cleanFirst ∧ cleanRest) :
    Leaves wasClean (items :: inputs) (cursor :: cursors, error) := by
  refine ⟨.cons h.holds hr.holds, fun hnone => .cons (h.loaded rfl) (hr.loaded hnone),
    fun hwas => ?_⟩
  obtain ⟨hnone, hall⟩ := hr.clean (hc hwas).2
  exact ⟨hnone, List.forall_mem_cons.mpr ⟨(h.clean (hc hwas).1).2, hall⟩⟩

theorem leaves_failed {cursor : Cursor α} (h : Cursor.Leaves cleanFirst items (cursor, some e))
    (hr : List.Forall₂ Cursor.Holds cursors inputs) (hc : wasClean → cleanFirst) :
    Leaves wasClean (items :: inputs) (cursor :: cursors, some e) :=
  ⟨.cons h.holds hr, by simp, fun hwas => absurd (hc hwas) h.not_clean⟩

theorem Leaves.not_clean (h : Leaves wasClean inputs (cursors, some e)) : ¬ wasClean := by
  intro hwas
  have hnone := (h.clean hwas).1
  cases hnone

theorem fillAll_leaves (input : Nat) (h : List.Forall₂ Cursor.Holds cursors inputs) :
    Leaves (∀ cursor ∈ cursors, cursor.Clean) inputs (fillAll false input cursors) := by
  induction h generalizing input with
  | nil => exact leaves_nil
  | @cons cursor items cursors inputs hcursor hrest ih =>
    have hfill := Cursor.fill_leaves input hcursor
    rw [fillAll]
    rcases hf : cursor.fill false input with ⟨filled, _ | e⟩
    · rw [hf] at hfill
      exact leaves_cons hfill (ih (input + 1)) List.forall_mem_cons.mp
    · rw [hf] at hfill
      exact leaves_failed hfill hrest fun hwas => (List.forall_mem_cons.mp hwas).1

theorem seekAll_leaves (key : Instant) (input : Nat)
    (h : List.Forall₂ Cursor.Holds cursors inputs) :
    ∃ kept, List.Forall₂ (Skips key) inputs kept ∧
      Leaves (∀ cursor ∈ cursors, cursor.Clean) kept (seekAll false key input cursors) ∧
      ((seekAll false key input cursors).2 = none →
        ∀ items ∈ kept, ∀ s ∈ items, key ≤ s.timestamp) := by
  induction h generalizing input with
  | nil => exact ⟨[], .nil, leaves_nil, by simp⟩
  | @cons cursor items cursors inputs hcursor hrest ih =>
    obtain ⟨kept, hskip, hseek, hkept⟩ := Cursor.seek_leaves key input hcursor
    rw [seekAll]
    rcases hs : cursor.seek false input key with ⟨sought, _ | e⟩
    · rw [hs] at hseek hkept
      obtain ⟨others, hskips, hlater, hothers⟩ := ih (input + 1)
      exact ⟨kept :: others, .cons hskip hskips, leaves_cons hseek hlater List.forall_mem_cons.mp,
        fun hnone => List.forall_mem_cons.mpr ⟨hkept rfl, hothers hnone⟩⟩
    · rw [hs] at hseek
      exact ⟨kept :: inputs, .cons hskip (List.forall₂_same.mpr fun _ _ => .refl),
        leaves_failed hseek hrest fun hwas => (List.forall_mem_cons.mp hwas).1, by simp⟩

-- ---------------------------------------------------------------------------
-- Heads
-- ---------------------------------------------------------------------------

theorem allKeys_eq_some {keys : List Instant} (h : allKeys cursors = some keys) :
    List.Forall₂ (fun cursor key => cursor.key? = some key) cursors keys := by
  induction cursors generalizing keys with
  | nil =>
    cases h
    exact .nil
  | cons cursor rest ih =>
    simp only [allKeys, List.mapM_cons, Option.pure_def, Option.bind_eq_bind,
      Option.bind_eq_some_iff, Option.some.injEq] at h
    obtain ⟨key, hkey, keys, hkeys, rfl⟩ := h
    exact .cons hkey (ih hkeys)

theorem allKeys_eq_none (h : allKeys cursors = none) : ∃ cursor ∈ cursors, cursor.key? = none := by
  induction cursors with
  | nil => cases h
  | cons cursor rest ih =>
    cases hkey : cursor.key? with
    | none => exact ⟨cursor, List.mem_cons_self, hkey⟩
    | some key =>
      cases hrest : allKeys rest with
      | none =>
        obtain ⟨c, hc, hnone⟩ := ih hrest
        exact ⟨c, List.mem_cons_of_mem _ hc, hnone⟩
      | some keys =>
        rw [allKeys] at h hrest
        simp [hkey, hrest] at h

theorem latest_eq_some {key : Instant} (h : (allKeys cursors).bind List.max? = some key) :
    (∃ cursor ∈ cursors, cursor.key? = some key) ∧
      ∀ cursor ∈ cursors, ∃ k, cursor.key? = some k ∧ k ≤ key := by
  obtain ⟨keys, hkeys, hmax⟩ := Option.bind_eq_some_iff.mp h
  obtain ⟨hmem, hle⟩ := List.max?_eq_some_iff.mp hmax
  refine ⟨exists_of_mem_allKeys hkeys hmem, fun cursor hcursor => ?_⟩
  obtain ⟨k, hk, hkey⟩ := exists_of_forall₂ (allKeys_eq_some hkeys) hcursor
  exact ⟨k, hkey, hle k hk⟩

theorem key?_of_none_before {key : Instant} (h : (allKeys cursors).bind List.max? = some key)
    (hnone : ¬ (cursors.any fun cursor => cursor.key?.any (· < key)) = true) :
    ∀ cursor ∈ cursors, cursor.key? = some key := by
  intro cursor hcursor
  obtain ⟨k, hk, hle⟩ := (latest_eq_some h).2 cursor hcursor
  have hnlt : ¬ k < key := fun hlt =>
    hnone (List.any_eq_true.mpr ⟨cursor, hcursor, by simp [hk, hlt]⟩)
  rw [hk, Std.le_antisymm hle (Std.not_lt.mp hnlt)]

theorem latest_eq_none (h : (allKeys cursors).bind List.max? = none) :
    cursors = [] ∨ ∃ cursor ∈ cursors, cursor.key? = none := by
  cases hkeys : allKeys cursors with
  | none => exact .inr (allKeys_eq_none hkeys)
  | some keys =>
    rw [hkeys, Option.bind_some, List.max?_eq_none_iff] at h
    exact .inl (List.forall₂_nil_right_iff.mp (h ▸ allKeys_eq_some hkeys))

theorem earliest_eq_some {key : Instant} (h : (cursors.filterMap Cursor.key?).min? = some key) :
    (∃ cursor ∈ cursors, cursor.key? = some key) ∧
      ∀ cursor ∈ cursors, ∀ k, cursor.key? = some k → key ≤ k := by
  obtain ⟨hmem, hle⟩ := List.min?_eq_some_iff.mp h
  exact ⟨List.mem_filterMap.mp hmem,
    fun cursor hcursor k hk => hle k (List.mem_filterMap.mpr ⟨cursor, hcursor, hk⟩)⟩

theorem earliest_eq_none (h : (cursors.filterMap Cursor.key?).min? = none) :
    ∀ cursor ∈ cursors, cursor.key? = none :=
  List.filterMap_eq_nil_iff.mp (List.min?_eq_none_iff.mp h)

-- ---------------------------------------------------------------------------
-- Steps
-- ---------------------------------------------------------------------------

/-- What a step has to do with the rows of the join of the inputs: with what it
answers, they are the rows of the join of what it leaves. Clean inputs stay so,
and do not fail. -/
inductive StepJoins (kind : JoinKind) (inputs : List (List (Sample α))) (wasClean : Prop) :
    Step α → Prop where
  | stop : Joins kind inputs [] → StepJoins kind inputs wasClean .stop
  | answer {first : Sample (Slots α)} : rest.kind = kind → rest.Holds kept →
      (∀ rows, Joins kind kept rows → Joins kind inputs (first :: rows)) →
      (wasClean → rest.Clean) → StepJoins kind inputs wasClean (.answer (.ok first) rest)
  | error : rest.kind = kind → rest.Holds kept →
      (∀ rows, Joins kind kept rows → Joins kind inputs rows) →
      ¬ wasClean → StepJoins kind inputs wasClean (.answer (.error e) rest)
  | again : rest.kind = kind → rest.Holds kept →
      (∀ rows, Joins kind kept rows → Joins kind inputs rows) →
      (wasClean → rest.Clean) → StepJoins kind inputs wasClean (.again rest)

variable {wasClean : Prop}

theorem StepJoins.of_kept {step : Step α} (h : StepJoins kind kept wasClean step)
    (hrows : ∀ rows, Joins kind kept rows → Joins kind inputs rows) :
    StepJoins kind inputs wasClean step := by
  cases h with
  | stop hjoins => exact .stop (hrows _ hjoins)
  | answer hkind hrest hjoins hclean =>
    exact .answer hkind hrest (fun rows hr => hrows _ (hjoins rows hr)) hclean
  | error hkind hrest hjoins hdirty =>
    exact .error hkind hrest (fun rows hr => hrows _ (hjoins rows hr)) hdirty
  | again hkind hrest hjoins hclean =>
    exact .again hkind hrest (fun rows hr => hrows _ (hjoins rows hr)) hclean

theorem row_joins {key : Instant} (hl : List.Forall₂ Cursor.Loaded cursors inputs)
    (hk : ∀ items ∈ inputs, ∀ s ∈ items, key ≤ s.timestamp)
    (hpos : 0 < kind.rowCount (inputs.map (valuesAt key)))
    (hclean : wasClean → ∀ cursor ∈ cursors, cursor.Clean) :
    StepJoins kind inputs wasClean (row kind key cursors) := by
  have hvalues : cursors.map (Cursor.valueAt key) = (inputs.map (valuesAt key)).map List.head? := by
    clear hpos hclean
    induction hl with
    | nil => rfl
    | cons hloaded _ ih =>
      obtain ⟨hfirst, hrest⟩ := List.forall_mem_cons.mp hk
      rw [List.map_cons, List.map_cons, List.map_cons, hloaded.valueAt_eq hfirst, ih hrest]
  have hrest : Holds ⟨kind, cursors.map (Cursor.passBy key)⟩ (inputs.map (behind key)) := by
    rw [Holds, List.forall₂_map_left_iff, List.forall₂_map_right_iff]
    exact hl.imp fun _ _ hloaded => hloaded.passBy
  have ho : ∀ items ∈ inputs, InOrder items := by
    intro items hitems
    obtain ⟨_, _, hloaded⟩ := exists_of_forall₂ (List.Forall₂.flip hl) hitems
    exact hloaded.holds.inOrder
  rw [row, hvalues]
  refine .answer rfl hrest (fun rows hrows => .cons ho hk hpos hrows) fun hwas => ?_
  simpa [Clean] using fun cursor hcursor => (hclean hwas cursor hcursor).passBy

-- ---------------------------------------------------------------------------
-- The kinds of joins
-- ---------------------------------------------------------------------------

theorem inner_ended (hl : List.Forall₂ Cursor.Loaded cursors inputs)
    (h : (allKeys cursors).bind List.max? = none) : Joins .inner inputs [] := by
  refine .nil fun t => ?_
  rcases latest_eq_none h with rfl | ⟨cursor, hcursor, hnone⟩
  · cases hl
    rfl
  · obtain ⟨items, hitems, hloaded⟩ := exists_of_forall₂ hl hcursor
    exact JoinKind.rowCount_inner_of_nil_mem
      (List.mem_map.mpr ⟨items, hitems, by rw [hloaded.eq_nil hnone, valuesAt_nil]⟩)

theorem innerRow_joins {key : Instant} (hl : List.Forall₂ Cursor.Loaded cursors inputs)
    (h : (allKeys cursors).bind List.max? = some key)
    (hnone : ¬ (cursors.any fun cursor => cursor.key?.any (· < key)) = true)
    (hclean : wasClean → ∀ cursor ∈ cursors, cursor.Clean) :
    StepJoins .inner inputs wasClean (row .inner key cursors) := by
  have hinputs : ∀ items ∈ inputs,
      (∀ s ∈ items, key ≤ s.timestamp) ∧ valuesAt key items ≠ [] := by
    intro items hitems
    obtain ⟨cursor, hcursor, hloaded⟩ := exists_of_forall₂ hl.flip hitems
    have hat := key?_of_none_before h hnone cursor hcursor
    exact ⟨hloaded.key_le (by simp [hat]), hloaded.valuesAt_ne_nil hat⟩
  have hsome : inputs ≠ [] := by
    obtain ⟨cursor, hcursor, -⟩ := (latest_eq_some h).1
    obtain ⟨items, hitems, -⟩ := exists_of_forall₂ hl hcursor
    exact List.ne_nil_of_mem hitems
  refine row_joins hl (fun items hitems => (hinputs items hitems).1) ?_ hclean
  refine JoinKind.rowCount_inner_pos (by simpa using hsome) ?_
  exact List.forall_mem_map.mpr fun items hitems => (hinputs items hitems).2

theorem dropBefore_joins {key : Instant} (hl : List.Forall₂ Cursor.Loaded cursors inputs)
    (hlatest : ∃ cursor ∈ cursors, cursor.key? = some key)
    (hclean : wasClean → ∀ cursor ∈ cursors, cursor.Clean) :
    StepJoins .inner inputs wasClean (.again ⟨.inner, cursors.map (Cursor.dropBefore key)⟩) := by
  obtain ⟨kept, hskips, hholds⟩ : ∃ kept, List.Forall₂ (Skips key) inputs kept ∧
      List.Forall₂ Cursor.Holds (cursors.map (Cursor.dropBefore key)) kept := by
    clear hclean hlatest
    induction hl with
    | nil => exact ⟨[], .nil, .nil⟩
    | cons hloaded _ ih =>
      obtain ⟨first, hskip, hfirst⟩ := hloaded.dropBefore key
      obtain ⟨others, hskips, hothers⟩ := ih
      exact ⟨first :: others, .cons hskip hskips, .cons hfirst hothers⟩
  -- the input with the latest head has nothing before it, so no row is lost
  obtain ⟨cursor, hcursor, hkey⟩ := hlatest
  obtain ⟨items, hitems, hloaded⟩ := exists_of_forall₂ hl hcursor
  obtain ⟨left, hleft, hskip⟩ := exists_of_forall₂ hskips hitems
  have hnone : ∀ t, t < key → valuesAt t items = [] :=
    fun t => valuesAt_before (hloaded.key_le (by simp [hkey]))
  refine .again rfl hholds (fun rows hrows => hrows.of_skips hskips ?_ ?_) fun hwas => ?_
  · intro t ht
    exact JoinKind.rowCount_inner_of_nil_mem (List.mem_map.mpr ⟨items, hitems, hnone t ht⟩)
  · intro t ht
    exact JoinKind.rowCount_inner_of_nil_mem
      (List.mem_map.mpr ⟨left, hleft, hskip.valuesAt_eq_nil (hnone t ht)⟩)
  · simpa [Clean] using fun cursor hcursor => (hclean hwas cursor hcursor).dropBefore

theorem stepInner_joins (h : List.Forall₂ Cursor.Holds cursors inputs) :
    StepJoins .inner inputs (∀ cursor ∈ cursors, cursor.Clean) (stepInner false cursors) := by
  have hleaves := fillAll_leaves 0 h
  unfold stepInner
  rcases hf : fillAll false 0 cursors with ⟨filled, _ | e⟩
  · rw [hf] at hleaves
    have hl := hleaves.loaded rfl
    have hclean := fun hwas => (hleaves.clean hwas).2
    cases hkey : (allKeys filled).bind List.max? with
    | none =>
      simp only [hkey]
      exact .stop (inner_ended hl hkey)
    | some key =>
      simp only [hkey]
      split
      · exact dropBefore_joins hl (latest_eq_some hkey).1 hclean
      · next hnone => exact innerRow_joins hl hkey hnone hclean
  · rw [hf] at hleaves
    exact .error rfl hleaves.holds (fun _ hrows => hrows) hleaves.not_clean

theorem stepLeft_joins (h : List.Forall₂ Cursor.Holds cursors inputs) :
    StepJoins .left inputs (∀ cursor ∈ cursors, cursor.Clean) (stepLeft false cursors) := by
  cases h with
  | nil => exact .stop (.nil fun _ => rfl)
  | @cons first items others inputs hfirst hothers =>
    have hfill := Cursor.fill_leaves 0 hfirst
    rw [stepLeft]
    rcases hf : first.fill false 0 with ⟨filled, _ | e⟩
    · rw [hf] at hfill
      have hloaded := hfill.loaded rfl
      cases hkey : filled.key? with
      | none =>
        simp only [hkey, hloaded.eq_nil hkey]
        exact .stop (.nil fun _ => rfl)
      | some key =>
        -- what is passed over while seeking stays so, also when an input fails
        obtain ⟨kept, hskips, hseek, hkept⟩ := seekAll_leaves key 1 hothers
        have hle : ∀ s ∈ items, key ≤ s.timestamp := hloaded.key_le (by simp [hkey])
        have hrows : ∀ rows,
            Joins .left (items :: kept) rows → Joins .left (items :: inputs) rows :=
          fun rows hrows => hrows.of_left_skips hle hskips
        simp only [hkey]
        rcases hs : seekAll false key 1 others with ⟨sought, _ | e⟩
        · rw [hs] at hseek hkept
          have hpos : 0 < JoinKind.left.rowCount ((items :: kept).map (valuesAt key)) :=
            JoinKind.rowCount_left_pos (hloaded.valuesAt_ne_nil hkey)
          refine (row_joins (.cons hloaded (hseek.loaded rfl))
            (List.forall_mem_cons.mpr ⟨hle, hkept rfl⟩) hpos fun hwas => ?_).of_kept hrows
          obtain ⟨hfirstClean, hothersClean⟩ := List.forall_mem_cons.mp hwas
          exact List.forall_mem_cons.mpr
            ⟨(hfill.clean hfirstClean).2, (hseek.clean hothersClean).2⟩
        · rw [hs] at hseek
          exact .error rfl (.cons hfill.holds hseek.holds) hrows
            fun hwas => hseek.not_clean (List.forall_mem_cons.mp hwas).2
    · rw [hf] at hfill
      exact .error rfl (.cons hfill.holds hothers) (fun _ hrows => hrows)
        fun hwas => hfill.not_clean (List.forall_mem_cons.mp hwas).1

theorem full_ended (hl : List.Forall₂ Cursor.Loaded cursors inputs)
    (h : (cursors.filterMap Cursor.key?).min? = none) : Joins .full inputs [] := by
  refine .nil fun t => Nat.eq_zero_of_not_pos fun hpos => ?_
  obtain ⟨group, hgroup, hne⟩ := JoinKind.exists_of_rowCount_pos hpos
  obtain ⟨items, hitems, rfl⟩ := List.mem_map.mp hgroup
  obtain ⟨cursor, hcursor, hloaded⟩ := exists_of_forall₂ hl.flip hitems
  exact hne (by rw [hloaded.eq_nil (earliest_eq_none h cursor hcursor), valuesAt_nil])

theorem stepFull_joins (h : List.Forall₂ Cursor.Holds cursors inputs) :
    StepJoins .full inputs (∀ cursor ∈ cursors, cursor.Clean) (stepFull false cursors) := by
  have hleaves := fillAll_leaves 0 h
  unfold stepFull
  rcases hf : fillAll false 0 cursors with ⟨filled, _ | e⟩
  · rw [hf] at hleaves
    have hl := hleaves.loaded rfl
    cases hkey : (filled.filterMap Cursor.key?).min? with
    | none =>
      simp only [hkey]
      exact .stop (full_ended hl hkey)
    | some key =>
      obtain ⟨⟨cursor, hcursor, hat⟩, hle⟩ := earliest_eq_some hkey
      obtain ⟨items, hitems, hloaded⟩ := exists_of_forall₂ hl hcursor
      simp only [hkey]
      refine row_joins hl ?_ ?_ fun hwas => (hleaves.clean hwas).2
      · intro items hitems
        obtain ⟨cursor, hcursor, hloaded⟩ := exists_of_forall₂ hl.flip hitems
        exact hloaded.key_le (hle cursor hcursor)
      · exact JoinKind.rowCount_full_pos (List.mem_map_of_mem hitems)
          (hloaded.valuesAt_ne_nil hat)
  · rw [hf] at hleaves
    exact .error rfl hleaves.holds (fun _ hrows => hrows) hleaves.not_clean

theorem step_joins {merge : Merge α} (h : merge.Holds inputs) :
    StepJoins merge.kind inputs merge.Clean (merge.step false) := by
  obtain ⟨kind, cursors⟩ := merge
  cases kind with
  | inner => exact stepInner_joins h
  | left => exact stepLeft_joins h
  | full => exact stepFull_joins h

-- ---------------------------------------------------------------------------
-- Runs
-- ---------------------------------------------------------------------------

theorem answers_stream {merge : Merge α} :
    merge.stream.answers =
      match merge.step false with
      | .stop => []
      | .answer answer rest => answer :: rest.stream.answers
      | .again rest => rest.stream.answers := by
  rw [Stream.answers, stream]
  cases merge.step false <;> rfl

theorem run_induction {motive : Merge α → Prop}
    (h : ∀ merge, (∀ rest, (merge.step false).rest? = some rest → motive rest) → motive merge)
    (merge : Merge α) : motive merge := by
  induction hsize : merge.size using Nat.strongRecOn generalizing merge with
  | ind n ih =>
    subst hsize
    exact h merge fun rest hrest => ih _ (size_step hrest) rest rfl

theorem stream_joins {merge : Merge α} (h : merge.Holds inputs) :
    ∃ rows, Joins merge.kind inputs rows ∧
      merge.stream.answers.filterMap Except.toOption = rows ∧
      (merge.Clean → merge.stream.answers = rows.map .ok) := by
  induction merge using run_induction generalizing inputs with
  | h merge ih =>
    have hstep := step_joins h
    rw [answers_stream]
    cases hs : merge.step false with
    | stop =>
      rw [hs] at hstep
      cases hstep with
      | stop hrows => exact ⟨[], hrows, rfl, fun _ => rfl⟩
    | answer answer rest =>
      rw [hs] at hstep
      have hgoes : (merge.step false).rest? = some rest := by rw [hs]; rfl
      cases hstep with
      | answer hkind hrest hrows hclean =>
        obtain ⟨rows, hjoins, hoks, hall⟩ := ih rest hgoes hrest
        refine ⟨_ :: rows, hrows rows (hkind ▸ hjoins), ?_, fun hwas => ?_⟩
        · simp only [List.filterMap_cons, Except.toOption, hoks]
        · exact congrArg _ (hall (hclean hwas))
      | error hkind hrest hrows hdirty =>
        obtain ⟨rows, hjoins, hoks, -⟩ := ih rest hgoes hrest
        refine ⟨rows, hrows rows (hkind ▸ hjoins), ?_, fun hwas => absurd hwas hdirty⟩
        simp only [List.filterMap_cons, Except.toOption, hoks]
    | again rest =>
      rw [hs] at hstep
      have hgoes : (merge.step false).rest? = some rest := by rw [hs]; rfl
      cases hstep with
      | again hkind hrest hrows hclean =>
        obtain ⟨rows, hjoins, hoks, hall⟩ := ih rest hgoes hrest
        exact ⟨rows, hrows rows (hkind ▸ hjoins), hoks, fun hwas => hall (hclean hwas)⟩

/-- A merge of inputs in order answers the rows of their join. -/
theorem answers_ofStreams {streams : List (Stream (Sample α))} (kind : JoinKind)
    {inputs : List (List (Sample α))}
    (h : List.Forall₂ (fun stream items => stream.answers = items.map .ok ∧ InOrder items)
      streams inputs) :
    ∃ rows, (ofStreams kind streams).stream.answers = rows.map .ok ∧ Joins kind inputs rows := by
  have hholds : (ofStreams kind streams).Holds inputs := by
    refine List.forall₂_map_left_iff.mpr (h.imp fun stream items hitems => ?_)
    have hcursor := Cursor.holds_ofStream stream
    rwa [hitems.1, cleaned_map_ok hitems.2 fun _ _ => rfl] at hcursor
  have hclean : (ofStreams kind streams).Clean := by
    refine List.forall_mem_map.mpr fun stream hstream => ?_
    obtain ⟨items, -, hanswers, ho⟩ := exists_of_forall₂ h hstream
    show stream.answers = (cleaned none stream.answers).map .ok
    rw [hanswers, cleaned_map_ok ho fun _ _ => rfl]
  obtain ⟨rows, hjoins, -, hall⟩ := stream_joins hholds
  exact ⟨rows, hall hclean, hjoins⟩

end Merge

theorem Joins.unique {kind : JoinKind} {inputs : List (List (Sample α))}
    {rows others : List (Sample (Slots α))} (h : Joins kind inputs rows)
    (ho : Joins kind inputs others) : rows = others :=
  h.inOrder.ext ho.inOrder fun t => (h.rowsAt t).trans (ho.rowsAt t).symm

end SeriesQuery
