/-!
# Numbered buckets

A line of whole numbers that is cut into buckets, numbered in their order:
`start` gives the first point of the bucket with a number, and `index` the
number of the bucket around a point. Buckets of one width are numbered so, and
so are buckets that are made up of smaller ones.
-/

namespace SeriesQuery

/-- The starts of buckets and the numbers of points form a Galois connection. -/
structure Numbering (start index : Int → Int) : Prop where
  start_le_iff : ∀ {k x : Int}, start k ≤ x ↔ k ≤ index x
  /-- No bucket is empty. -/
  start_lt_succ : ∀ k, start k < start (k + 1)

namespace Numbering

variable {start index : Int → Int}

theorem start_le (h : Numbering start index) (x : Int) : start (index x) ≤ x :=
  h.start_le_iff.mpr (Int.le_refl _)

theorem lt_start_iff (h : Numbering start index) : x < start k ↔ index x < k := by
  rw [← Int.not_le, ← Int.not_le, h.start_le_iff]

theorem lt_start_succ (h : Numbering start index) (x : Int) : x < start (index x + 1) :=
  h.lt_start_iff.mpr (Int.lt_succ _)

theorem index_start (h : Numbering start index) (k : Int) : index (start k) = k := by
  have hge : k ≤ index (start k) := h.start_le_iff.mp (Int.le_refl _)
  have hlt : index (start k) < k + 1 := h.lt_start_iff.mp (h.start_lt_succ k)
  omega

theorem index_mono (h : Numbering start index) (hxy : x ≤ y) : index x ≤ index y :=
  h.start_le_iff.mp (Int.le_trans (h.start_le x) hxy)

theorem start_mono (h : Numbering start index) (hkl : k ≤ l) : start k ≤ start l :=
  h.start_le_iff.mpr ((h.index_start l).symm ▸ hkl)

-- ---------------------------------------------------------------------------
-- Ways of numbering
-- ---------------------------------------------------------------------------

theorem points : Numbering id id := ⟨Iff.rfl, Int.lt_succ⟩

theorem even (width offset : Int) (hw : 0 < width) :
    Numbering (fun k => k * width - offset) (fun x => (x + offset) / width) := by
  refine ⟨fun {k x} => ?_, fun k => ?_⟩
  · rw [Int.le_ediv_iff_mul_le hw]
    omega
  · have hnext : (k + 1) * width = k * width + width := by rw [Int.add_mul, Int.one_mul]
    simp only [hnext]
    omega

theorem comp {fine coarse fineIndex coarseIndex : Int → Int} (hf : Numbering fine fineIndex)
    (hc : Numbering coarse coarseIndex) :
    Numbering (fine ∘ coarse) (coarseIndex ∘ fineIndex) := by
  refine ⟨hf.start_le_iff.trans hc.start_le_iff, fun k => ?_⟩
  calc fine (coarse k) < fine (coarse k + 1) := hf.start_lt_succ _
    _ ≤ fine (coarse (k + 1)) := hf.start_mono (hc.start_lt_succ k)

end Numbering

end SeriesQuery
