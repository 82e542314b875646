import SeriesQuery.Json.Basic

/-!
# Canonical JSON

A tree is canonical if the keys of each object ascend strictly. Making a tree canonical gives a
canonical tree and leaves one as it is.
-/

namespace SeriesQuery.Json

def Ascending (entries : List (String × Json)) : Prop :=
  entries.Pairwise fun a b => a.1 < b.1

mutual

def IsCanonical : Json → Prop
  | .array items => ItemsCanonical items
  | .object entries => Ascending entries ∧ EntriesCanonical entries
  | .null => True
  | .bool _ => True
  | .integer _ => True
  | .decimal _ => True
  | .string _ => True

def ItemsCanonical : List Json → Prop
  | [] => True
  | item :: rest => IsCanonical item ∧ ItemsCanonical rest

def EntriesCanonical : List (String × Json) → Prop
  | [] => True
  | (_, value) :: rest => IsCanonical value ∧ EntriesCanonical rest

end

theorem mem_setEntry {key : String} {value : Json} {entries : List (String × Json)}
    {entry : String × Json} (h : entry ∈ setEntry key value entries) :
    entry = (key, value) ∨ entry ∈ entries := by
  induction entries with
  | nil => simpa [setEntry] using h
  | cons head rest ih =>
    obtain ⟨k, v⟩ := head
    unfold setEntry at h
    split at h
    · simpa using h
    · split at h
      · rcases List.mem_cons.1 h with h | h
        · exact .inl h
        · exact .inr (List.mem_cons_of_mem _ h)
      · rcases List.mem_cons.1 h with h | h
        · exact .inr (h ▸ List.mem_cons_self)
        · rcases ih h with h | h
          · exact .inl h
          · exact .inr (List.mem_cons_of_mem _ h)

theorem entriesCanonical_iff {entries : List (String × Json)} :
    EntriesCanonical entries ↔ ∀ entry ∈ entries, IsCanonical entry.2 := by
  induction entries with
  | nil => simp [EntriesCanonical]
  | cons head rest ih => simp [EntriesCanonical, ih]

theorem ascending_setEntry {key : String} {value : Json} {entries : List (String × Json)}
    (h : Ascending entries) : Ascending (setEntry key value entries) := by
  induction entries with
  | nil => simp [setEntry, Ascending]
  | cons head rest ih =>
    obtain ⟨k, v⟩ := head
    obtain ⟨above, rest_ascending⟩ := List.pairwise_cons.1 h
    unfold setEntry
    split
    · next less =>
      refine List.pairwise_cons.2 ⟨fun entry member => ?_, h⟩
      rcases List.mem_cons.1 member with rfl | member
      · exact less
      · exact String.lt_trans less (above entry member)
    · split
      · next equal => exact List.pairwise_cons.2 ⟨fun entry member => equal ▸ above entry member,
          rest_ascending⟩
      · next notLess notEqual =>
        refine List.pairwise_cons.2 ⟨fun entry member => ?_, ih rest_ascending⟩
        rcases mem_setEntry member with rfl | member
        · rcases Std.lt_trichotomy key k with h | h | h
          · exact absurd h notLess
          · exact absurd h notEqual
          · exact h
        · exact above entry member

theorem entriesCanonical_setEntry {key : String} {value : Json} {entries : List (String × Json)}
    (hv : IsCanonical value) (h : EntriesCanonical entries) :
    EntriesCanonical (setEntry key value entries) := by
  rw [entriesCanonical_iff] at *
  intro entry member
  rcases mem_setEntry member with rfl | member
  · exact hv
  · exact h entry member

theorem setEntry_of_above {key : String} {value : Json} {entries : List (String × Json)}
    (h : ∀ entry ∈ entries, entry.1 < key) :
    setEntry key value entries = entries ++ [(key, value)] := by
  induction entries with
  | nil => rfl
  | cons head rest ih =>
    obtain ⟨k, v⟩ := head
    have less : k < key := h (k, v) List.mem_cons_self
    have notLess : ¬ key < k := fun h => String.lt_irrefl _ (String.lt_trans h less)
    have notEqual : key ≠ k := by rintro rfl; exact String.lt_irrefl _ less
    rw [setEntry, if_neg notLess, if_neg notEqual,
      ih fun entry member => h entry (List.mem_cons_of_mem _ member)]
    rfl

theorem foldl_setEntry_eq_append {entries sorted : List (String × Json)}
    (h : Ascending (sorted ++ entries)) :
    entries.foldl (fun sorted entry => setEntry entry.1 entry.2 sorted) sorted =
      sorted ++ entries := by
  induction entries generalizing sorted with
  | nil => simp
  | cons head rest ih =>
    have above : ∀ entry ∈ sorted, entry.1 < head.1 := fun entry member =>
      (List.pairwise_append.1 h).2.2 entry member head List.mem_cons_self
    rw [List.foldl_cons, setEntry_of_above above, ih (by simpa using h)]
    simp

theorem sortEntries_of_ascending {entries : List (String × Json)} (h : Ascending entries) :
    sortEntries entries = entries := by
  have appended : Ascending ([] ++ entries) := h
  exact foldl_setEntry_eq_append appended

theorem foldl_setEntry_canonical {entries sorted : List (String × Json)}
    (values : EntriesCanonical entries) (h : Ascending sorted ∧ EntriesCanonical sorted) :
    let merged := entries.foldl (fun sorted entry => setEntry entry.1 entry.2 sorted) sorted
    Ascending merged ∧ EntriesCanonical merged := by
  induction entries generalizing sorted with
  | nil => exact h
  | cons head rest ih =>
    exact ih values.2 ⟨ascending_setEntry h.1, entriesCanonical_setEntry values.1 h.2⟩

mutual

theorem isCanonical_canonical (tree : Json) : IsCanonical (canonical tree) := by
  cases tree with
  | array items =>
    rw [canonical, IsCanonical]
    exact itemsCanonical_canonicalItems items
  | object entries =>
    rw [canonical, IsCanonical]
    exact foldl_setEntry_canonical (entriesCanonical_canonicalEntries entries)
      ⟨List.Pairwise.nil, trivial⟩
  | null => trivial
  | bool => trivial
  | integer => trivial
  | decimal => trivial
  | string => trivial

theorem itemsCanonical_canonicalItems (items : List Json) :
    ItemsCanonical (canonicalItems items) := by
  match items with
  | [] => trivial
  | item :: rest =>
    exact ⟨isCanonical_canonical item, itemsCanonical_canonicalItems rest⟩

theorem entriesCanonical_canonicalEntries (entries : List (String × Json)) :
    EntriesCanonical (canonicalEntries entries) := by
  match entries with
  | [] => trivial
  | (_, value) :: rest =>
    exact ⟨isCanonical_canonical value, entriesCanonical_canonicalEntries rest⟩

end

mutual

theorem canonical_of_isCanonical {tree : Json} (h : IsCanonical tree) : canonical tree = tree := by
  match tree with
  | .array items => rw [canonical, canonicalItems_of_itemsCanonical h]
  | .object entries =>
    rw [canonical, canonicalEntries_of_entriesCanonical h.2, sortEntries_of_ascending h.1]
  | .null => rfl
  | .bool _ => rfl
  | .integer _ => rfl
  | .decimal _ => rfl
  | .string _ => rfl

theorem canonicalItems_of_itemsCanonical {items : List Json} (h : ItemsCanonical items) :
    canonicalItems items = items := by
  match items with
  | [] => rfl
  | item :: rest =>
    rw [canonicalItems, canonical_of_isCanonical h.1, canonicalItems_of_itemsCanonical h.2]

theorem canonicalEntries_of_entriesCanonical {entries : List (String × Json)}
    (h : EntriesCanonical entries) : canonicalEntries entries = entries := by
  match entries with
  | [] => rfl
  | (_, value) :: rest =>
    rw [canonicalEntries, canonical_of_isCanonical h.1, canonicalEntries_of_entriesCanonical h.2]

end

end SeriesQuery.Json
