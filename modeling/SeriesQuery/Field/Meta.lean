import SeriesQuery.Json.Canonical

/-!
# Metadata

The free-form metadata of a field: an object of JSON, in canonical form.
-/

namespace SeriesQuery

/-- Keys in ascending order with canonical trees. -/
structure Meta where
  entries : List (String × Json)
  ascending : Json.Ascending entries
  canonical : Json.EntriesCanonical entries

namespace Meta

def empty : Meta := ⟨[], List.Pairwise.nil, trivial⟩

theorem ext {a b : Meta} (h : a.entries = b.entries) : a = b := by
  cases a; cases b; cases h; rfl

def insertAll (start : Meta) (entries : List (String × Json)) : Meta :=
  let canonical := Json.canonicalEntries entries
  have valid := Json.foldl_setEntry_canonical (Json.entriesCanonical_canonicalEntries entries)
    ⟨start.ascending, start.canonical⟩
  ⟨canonical.foldl (fun sorted entry => Json.setEntry entry.1 entry.2 sorted) start.entries,
    valid.1, valid.2⟩

/-- The metadata of an object; of repeated keys the last one counts. -/
def ofEntries (entries : List (String × Json)) : Meta :=
  empty.insertAll entries

/-- The entries of both; where a key is in both, the second one counts. -/
def merge (first second : Meta) : Meta :=
  first.insertAll second.entries

@[simp] theorem ofEntries_entries (m : Meta) : ofEntries m.entries = m := by
  apply ext
  change Json.sortEntries (Json.canonicalEntries m.entries) = m.entries
  rw [Json.canonicalEntries_of_entriesCanonical m.canonical,
    Json.sortEntries_of_ascending m.ascending]

end Meta

end SeriesQuery
