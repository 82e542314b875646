import Mathlib.Data.List.Forall2
import SeriesQuery.Proofs.Time.Order
import SeriesQuery.Store.Series
import SeriesQuery.Stream.Merge

/-!
# What a join answers

The rows of a join, said of whole inputs and without cursors. At each timestamp
the samples of an input are numbered in their order, and the row with a number
pairs the samples with that number. How many rows there are depends on the kind
of the join: as many as every input has samples there, as many as the first
input has, or as many as any has.

`Joins.cons` and `Joins.of_alike` are the two ways in which the rows of some
inputs follow from those of what is left of the inputs later.
-/

namespace SeriesQuery

/-- The values at a timestamp, in their order. -/
def valuesAt (t : Instant) (input : List (Sample α)) : List α :=
  (input.filter fun sample => sample.timestamp = t).map (·.value)

/-- Which of the numbers of samples that the inputs have at a timestamp counts:
the least, that of the first input, or the greatest. -/
def JoinKind.choose (kind : JoinKind) (counts : List Nat) : Option Nat :=
  match kind with
  | .inner => counts.min?
  | .left => counts.head?
  | .full => counts.max?

/-- The number of rows for the values that the inputs have at one timestamp. -/
def JoinKind.rowCount (kind : JoinKind) (values : List (List α)) : Nat :=
  (kind.choose (values.map List.length)).getD 0

/-- The rows for the values that the inputs have at a timestamp: the row with a
number has the value with that number of each input, or nothing if the input
has fewer. -/
def JoinKind.pairUp (kind : JoinKind) (t : Instant) (values : List (List α)) :
    List (Sample (Slots α)) :=
  (List.range (kind.rowCount values)).map fun k => ⟨t, values.map fun group => group[k]?⟩

structure Joins (kind : JoinKind) (inputs : List (List (Sample α)))
    (rows : List (Sample (Slots α))) : Prop where
  inOrder : InOrder rows
  rowsAt : ∀ t, rows.filter (fun row => row.timestamp = t) =
    kind.pairUp t (inputs.map (valuesAt t))

-- ---------------------------------------------------------------------------
-- Numbers of rows
-- ---------------------------------------------------------------------------

namespace JoinKind

theorem choose_mem {kind : JoinKind} {counts : List Nat} (h : kind.choose counts = some n) :
    n ∈ counts := by
  cases kind with
  | inner => exact List.min?_mem h
  | left => exact List.mem_of_mem_head? h
  | full => exact List.max?_mem h

theorem choose_map_pred {kind : JoinKind} {counts : List Nat} :
    kind.choose (counts.map (· - 1)) = (kind.choose counts).map (· - 1) := by
  cases kind with
  | inner =>
    simp only [choose]
    cases h : counts.min? with
    | none => simp [List.min?_eq_none_iff.mp h]
    | some m =>
      obtain ⟨hmem, hle⟩ := List.min?_eq_some_iff.mp h
      refine List.min?_eq_some_iff.mpr ⟨List.mem_map_of_mem hmem, fun n hn => ?_⟩
      obtain ⟨k, hk, rfl⟩ := List.mem_map.mp hn
      exact Nat.sub_le_sub_right (hle k hk) 1
  | left => cases counts <;> rfl
  | full =>
    simp only [choose]
    cases h : counts.max? with
    | none => simp [List.max?_eq_none_iff.mp h]
    | some m =>
      obtain ⟨hmem, hle⟩ := List.max?_eq_some_iff.mp h
      refine List.max?_eq_some_iff.mpr ⟨List.mem_map_of_mem hmem, fun n hn => ?_⟩
      obtain ⟨k, hk, rfl⟩ := List.mem_map.mp hn
      exact Nat.sub_le_sub_right (hle k hk) 1

theorem rowCount_map_tail {kind : JoinKind} {values : List (List α)} :
    kind.rowCount (values.map List.tail) = kind.rowCount values - 1 := by
  have hlen : (values.map List.tail).map List.length = (values.map List.length).map (· - 1) := by
    simp [Function.comp_def]
  rw [rowCount, hlen, choose_map_pred, rowCount]
  cases kind.choose (values.map List.length) <;> rfl

theorem exists_of_rowCount_pos {kind : JoinKind} {values : List (List α)}
    (h : 0 < kind.rowCount values) : ∃ group ∈ values, group ≠ [] := by
  cases hn : kind.choose (values.map List.length) with
  | none => simp [rowCount, hn] at h
  | some n =>
    obtain ⟨group, hgroup, rfl⟩ := List.mem_map.mp (choose_mem hn)
    refine ⟨group, hgroup, List.ne_nil_of_length_pos ?_⟩
    simpa [rowCount, hn] using h

theorem rowCount_inner_le {values : List (List α)} (h : group ∈ values) :
    inner.rowCount values ≤ group.length :=
  List.min?_getD_le_of_mem (List.mem_map_of_mem h)

theorem le_rowCount_full {values : List (List α)} (h : group ∈ values) :
    group.length ≤ full.rowCount values :=
  List.le_max?_getD_of_mem (List.mem_map_of_mem h)

theorem rowCount_inner_of_nil_mem {values : List (List α)} (h : [] ∈ values) :
    inner.rowCount values = 0 :=
  Nat.le_zero.mp (rowCount_inner_le h)

theorem rowCount_inner_pos {values : List (List α)} (hne : values ≠ [])
    (h : ∀ group ∈ values, group ≠ []) : 0 < inner.rowCount values := by
  cases hm : (values.map List.length).min? with
  | none => simp [hne] at hm
  | some m =>
    obtain ⟨group, hgroup, hlen⟩ := List.mem_map.mp (List.min?_mem hm)
    simpa [rowCount, choose, hm, ← hlen, List.length_pos_iff] using h group hgroup

theorem rowCount_left_of_nil {values : List (List α)} : left.rowCount ([] :: values) = 0 := rfl

theorem rowCount_left_pos {group : List α} {values : List (List α)} (h : group ≠ []) :
    0 < left.rowCount (group :: values) :=
  List.length_pos_iff.mpr h

theorem rowCount_full_pos {values : List (List α)} (hg : group ∈ values)
    (h : group ≠ []) : 0 < full.rowCount values :=
  Nat.lt_of_lt_of_le (List.length_pos_iff.mpr h) (le_rowCount_full hg)

theorem pairUp_eq_nil {kind : JoinKind} {values : List (List α)}
    (h : kind.rowCount values = 0) : kind.pairUp t values = [] := by
  simp [pairUp, h]

theorem pairUp_of_pos {kind : JoinKind} {values : List (List α)} (h : 0 < kind.rowCount values) :
    kind.pairUp t values =
      ⟨t, values.map List.head?⟩ :: kind.pairUp t (values.map List.tail) := by
  obtain ⟨n, hn⟩ := Nat.exists_eq_succ_of_ne_zero (Nat.pos_iff_ne_zero.mp h)
  have hhead : (List.head? : List α → Option α) = fun group => group[0]? :=
    funext fun _ => List.head?_eq_getElem?
  simp only [pairUp, rowCount_map_tail, hn, Nat.succ_eq_add_one, Nat.add_sub_cancel,
    List.range_succ_eq_map, List.map_cons, List.map_map, Function.comp_def, List.getElem?_tail,
    hhead]

end JoinKind

-- ---------------------------------------------------------------------------
-- What is left of an input
-- ---------------------------------------------------------------------------

theorem valuesAt_nil : valuesAt t ([] : List (Sample α)) = [] := rfl

theorem valuesAt_cons_self {sample : Sample α} {rest : List (Sample α)} :
    valuesAt sample.timestamp (sample :: rest) =
      sample.value :: valuesAt sample.timestamp rest := by
  simp [valuesAt]

theorem valuesAt_cons_of_ne {sample : Sample α} {rest : List (Sample α)}
    (h : sample.timestamp ≠ t) : valuesAt t (sample :: rest) = valuesAt t rest := by
  simp [valuesAt, h]

theorem valuesAt_eq_nil {input : List (Sample α)} (h : ∀ s ∈ input, s.timestamp ≠ t) :
    valuesAt t input = [] := by
  simpa [valuesAt] using h

theorem valuesAt_before {input : List (Sample α)} (hk : ∀ s ∈ input, key ≤ s.timestamp)
    (ht : t < key) : valuesAt t input = [] :=
  valuesAt_eq_nil fun s hs heq => Std.not_lt.mpr (hk s hs) (heq ▸ ht)

theorem exists_of_valuesAt_ne_nil {input : List (Sample α)} (h : valuesAt t input ≠ []) :
    ∃ s ∈ input, s.timestamp = t := by
  simpa [valuesAt] using h

theorem InOrder.head_le {sample : Sample α} {rest : List (Sample α)}
    (h : InOrder (sample :: rest)) : ∀ s ∈ sample :: rest, sample.timestamp ≤ s.timestamp := by
  intro s hs
  rcases List.mem_cons.mp hs with rfl | hs
  · exact Std.le_refl _
  · exact (List.pairwise_cons.mp h).1 s hs

/-- What is left of an input behind the row of a key: a head at the key is used
up. -/
def behind (key : Instant) : List (Sample α) → List (Sample α)
  | [] => []
  | sample :: rest => if sample.timestamp = key then rest else sample :: rest

theorem mem_of_mem_behind {input : List (Sample α)} {s : Sample α} (h : s ∈ behind key input) :
    s ∈ input := by
  cases input with
  | nil => exact h
  | cons sample rest =>
    simp only [behind] at h
    split at h
    · exact List.mem_cons_of_mem _ h
    · exact h

theorem valuesAt_behind_of_ne {input : List (Sample α)} (h : key ≠ t) :
    valuesAt t (behind key input) = valuesAt t input := by
  cases input with
  | nil => rfl
  | cons sample rest =>
    simp only [behind]
    split
    · next hkey => exact (valuesAt_cons_of_ne (hkey ▸ h)).symm
    · rfl

theorem valuesAt_behind {input : List (Sample α)} (ho : InOrder input)
    (hk : ∀ s ∈ input, key ≤ s.timestamp) :
    valuesAt key (behind key input) = (valuesAt key input).tail := by
  cases input with
  | nil => rfl
  | cons sample rest =>
    simp only [behind]
    split
    · next hkey => rw [← hkey, valuesAt_cons_self, List.tail_cons]
    · next hne =>
      have hlater : ∀ s ∈ sample :: rest, s.timestamp ≠ key := by
        intro s hs
        have := ho.head_le s hs
        have := hk sample List.mem_cons_self
        grind
      rw [valuesAt_eq_nil hlater, List.tail_nil]

/-- The end of an input that samples before a key are missing from. -/
def Skips (key : Instant) (input kept : List (Sample α)) : Prop :=
  ∃ dropped, input = dropped ++ kept ∧ ∀ s ∈ dropped, s.timestamp < key

theorem Skips.refl : Skips key input input := ⟨[], rfl, by simp⟩

theorem Skips.cons (h : Skips key input kept) (hs : sample.timestamp < key) :
    Skips key (sample :: input) kept := by
  obtain ⟨dropped, rfl, hlt⟩ := h
  exact ⟨sample :: dropped, rfl, List.forall_mem_cons.mpr ⟨hs, hlt⟩⟩

theorem Skips.valuesAt_eq (h : Skips key input kept) (ht : key ≤ t) :
    valuesAt t kept = valuesAt t input := by
  obtain ⟨dropped, rfl, hlt⟩ := h
  have hnone : valuesAt t dropped = [] := valuesAt_eq_nil fun s hs heq => by
    have := hlt s hs
    grind
  simp only [valuesAt, List.filter_append, List.map_append] at hnone ⊢
  rw [hnone, List.nil_append]

theorem Skips.valuesAt_eq_nil (h : Skips key input kept) (hn : valuesAt t input = []) :
    valuesAt t kept = [] := by
  obtain ⟨dropped, rfl, -⟩ := h
  simp only [valuesAt, List.filter_append, List.map_append, List.append_eq_nil_iff] at hn
  exact hn.2

-- ---------------------------------------------------------------------------
-- Joins
-- ---------------------------------------------------------------------------

namespace Joins

variable {kind : JoinKind} {inputs kept : List (List (Sample α))} {rows : List (Sample (Slots α))}

theorem nil (h : ∀ t, kind.rowCount (inputs.map (valuesAt t)) = 0) : Joins kind inputs [] :=
  ⟨.nil, fun t => (JoinKind.pairUp_eq_nil (h t)).symm⟩

theorem mem_pairUp {row : Sample (Slots α)} (h : Joins kind inputs rows) (hrow : row ∈ rows) :
    row ∈ kind.pairUp row.timestamp (inputs.map (valuesAt row.timestamp)) := by
  rw [← h.rowsAt]
  simpa using hrow

theorem of_skips (h : Joins kind kept rows) (hs : List.Forall₂ (Skips key) inputs kept)
    (hi : ∀ t, t < key → kind.rowCount (inputs.map (valuesAt t)) = 0)
    (hk : ∀ t, t < key → kind.rowCount (kept.map (valuesAt t)) = 0) : Joins kind inputs rows := by
  refine ⟨h.inOrder, fun t => ?_⟩
  rw [h.rowsAt t]
  by_cases ht : t < key
  · rw [JoinKind.pairUp_eq_nil (hi t ht), JoinKind.pairUp_eq_nil (hk t ht)]
  · clear h hi hk
    congr 1
    induction hs with
    | nil => rfl
    | cons hskip _ ih =>
      rw [List.map_cons, List.map_cons, ih, hskip.valuesAt_eq (Std.not_lt.mp ht)]

theorem of_left_skips {items : List (Sample α)} (h : Joins .left (items :: kept) rows)
    (hk : ∀ s ∈ items, key ≤ s.timestamp) (hs : List.Forall₂ (Skips key) inputs kept) :
    Joins .left (items :: inputs) rows := by
  have hnone : ∀ (others : List (List (Sample α))) t, t < key →
      JoinKind.left.rowCount ((items :: others).map (valuesAt t)) = 0 := by
    intro others t ht
    rw [List.map_cons, valuesAt_before hk ht]
    exact JoinKind.rowCount_left_of_nil
  exact h.of_skips (.cons .refl hs) (hnone inputs) (hnone kept)

/-- The first row is that of a key which no sample comes before; the others are
the rows of what is left behind it. -/
theorem cons (ho : ∀ input ∈ inputs, InOrder input)
    (hk : ∀ input ∈ inputs, ∀ s ∈ input, key ≤ s.timestamp)
    (hpos : 0 < kind.rowCount (inputs.map (valuesAt key)))
    (h : Joins kind (inputs.map (behind key)) rows) :
    Joins kind inputs (⟨key, (inputs.map (valuesAt key)).map List.head?⟩ :: rows) := by
  refine ⟨List.pairwise_cons.mpr ⟨fun row hrow => ?_, h.inOrder⟩, fun t => ?_⟩
  · -- a later row stands at the timestamp of some sample that is left
    obtain ⟨k, hlt, -⟩ := List.mem_map.mp (h.mem_pairUp hrow)
    obtain ⟨values, hvalues, hne⟩ := JoinKind.exists_of_rowCount_pos
      (Nat.lt_of_le_of_lt (Nat.zero_le k) (List.mem_range.mp hlt))
    simp only [List.map_map, List.mem_map, Function.comp_apply] at hvalues
    obtain ⟨input, hinput, rfl⟩ := hvalues
    obtain ⟨s, hs, hst⟩ := exists_of_valuesAt_ne_nil hne
    exact hst ▸ hk input hinput s (mem_of_mem_behind hs)
  · by_cases ht : key = t
    · subst ht
      have hrest : (inputs.map (behind key)).map (valuesAt key) =
          (inputs.map (valuesAt key)).map List.tail := by
        rw [List.map_map, List.map_map]
        exact List.map_congr_left fun input hi => valuesAt_behind (ho input hi) (hk input hi)
      rw [List.filter_cons_of_pos (by simp), h.rowsAt key, hrest, JoinKind.pairUp_of_pos hpos]
    · have hrest : (inputs.map (behind key)).map (valuesAt t) = inputs.map (valuesAt t) := by
        rw [List.map_map]
        exact List.map_congr_left fun input _ => valuesAt_behind_of_ne ht
      rw [List.filter_cons_of_neg (by simpa using ht), h.rowsAt t, hrest]

end Joins

end SeriesQuery
