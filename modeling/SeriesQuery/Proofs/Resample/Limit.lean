import Mathlib.Data.Set.Card
import SeriesQuery.Proofs.Resample.Idempotence
import SeriesQuery.Proofs.Resample.Progress

/-!
# The limit of a gap

Between two starts of buckets a grid goes from boundary to boundary, which
outside of leap seconds are the starts between them. A gap with no more of them
than the limit gets them all; the first gap with more of them gets as many as the
limit allows, and then the run ends.
-/

namespace SeriesQuery

namespace Grid

/-- The boundaries between two instants, as the grid goes forward from the first one. -/
def inside (grid : Grid) (first last : Instant) : Set Instant :=
  {t | (∃ walk, grid.Walk first t walk) ∧ first < t ∧ t < last}

/-- No boundary between the instants is the last one of the calendar. -/
def Spans (grid : Grid) (first last : Instant) : Prop :=
  ∀ t walk, grid.Walk first t walk → t < last → grid.next t ≠ none

def Passes (grid : Grid) (first last : Instant) : Prop :=
  ∀ t walk, grid.Walk first t walk → t < last → ∃ next, grid.next t = some next ∧ t < next

variable {grid : Grid} {first last t u : Instant} {front walk path : List Instant}

theorem Walk.mem_of_le (h : grid.Walk first last walk) (ht : grid.Walk first t path)
    (hle : t ≤ last) : t ∈ walk := by
  induction h generalizing path with
  | stop => exact List.mem_singleton.mpr (Std.le_antisymm hle ht.le)
  | step hnext _ _ ih =>
    cases ht with
    | stop => exact List.mem_cons_self
    | step hnext' _ hpath =>
      obtain rfl := Option.some.inj (hnext.symm.trans hnext')
      exact List.mem_cons_of_mem _ (ih hpath hle)

theorem Walk.of_mem (h : grid.Walk first last walk) (ht : t ∈ walk) :
    ∃ path, grid.Walk first t path := by
  induction h with
  | stop =>
    obtain rfl := List.mem_singleton.mp ht
    exact ⟨_, .stop⟩
  | step hnext hlt _ ih =>
    rcases List.mem_cons.mp ht with rfl | ht
    · exact ⟨_, .stop⟩
    · obtain ⟨path, hpath⟩ := ih ht
      exact ⟨_, .step hnext hlt hpath⟩

theorem Walk.mem_inside_iff (h : grid.Walk first u (first :: front ++ [u])) (hu : last ≤ u)
    (hfront : ∀ t ∈ front, t < last) : t ∈ front ↔ t ∈ grid.inside first last := by
  have hascending := h.ascending
  rw [List.cons_append, List.pairwise_cons] at hascending
  constructor
  · intro ht
    exact ⟨h.of_mem (by simp [ht]), hascending.1 t (by simp [ht]), hfront t ht⟩
  · rintro ⟨⟨path, hpath⟩, hafter, hbefore⟩
    have hmem := h.mem_of_le hpath (Std.le_of_lt (Std.lt_of_lt_of_le hbefore hu))
    simp only [List.cons_append, List.mem_cons, List.mem_append, List.not_mem_nil, or_false] at hmem
    obtain rfl | hmem | rfl := hmem
    · exact absurd hafter Std.lt_irrefl
    · exact hmem
    · exact absurd hbefore (Std.not_lt.mpr hu)

-- ---------------------------------------------------------------------------
-- Between starts of buckets
-- ---------------------------------------------------------------------------

theorem Walk.startsAt (hl : grid.Lawful) (h : grid.Walk first t walk) (hfirst : grid.StartsAt first)
    (hlast : grid.StartsAt last) (hlt : t < last) : grid.StartsAt t := by
  induction h with
  | stop => exact hfirst
  | step hnext _ hrest ih =>
    have hbefore := Std.lt_of_le_of_lt (Walk.step hnext ‹_› hrest).le hlt
    obtain ⟨_, hnext', hstart, -⟩ := hl.next_le hfirst hlast hbefore
    obtain rfl := Option.some.inj (hnext.symm.trans hnext')
    exact ih hstart hlt

theorem exists_walk {first : Instant} (hl : grid.Lawful) (hfirst : grid.StartsAt first)
    (ht : grid.StartsAt t) (hle : first ≤ t) : ∃ walk, grid.Walk first t walk := by
  by_cases hlt : first < t
  · obtain ⟨second, hnext, hstart, hforward, hsecond⟩ := hl.next_le hfirst ht hlt
    obtain ⟨walk, hwalk⟩ := exists_walk hl hstart ht hsecond
    exact ⟨_, .step hnext hforward hwalk⟩
  · obtain rfl := Std.le_antisymm hle (Std.not_lt.mp hlt)
    exact ⟨_, .stop⟩
termination_by (t.place - first.place).toNat
decreasing_by
  rw [Instant.lt_def] at hlt hforward
  omega

/-- Between starts outside of leap seconds the boundaries are all such starts. -/
theorem mem_inside_iff_startsAt (hl : grid.Lawful) (hfirst : grid.StartsAt first)
    (hlast : grid.StartsAt last) :
    t ∈ grid.inside first last ↔ grid.StartsAt t ∧ first < t ∧ t < last := by
  constructor
  · rintro ⟨⟨walk, hwalk⟩, hafter, hbefore⟩
    exact ⟨hwalk.startsAt hl hfirst hlast hbefore, hafter, hbefore⟩
  · rintro ⟨ht, hafter, hbefore⟩
    exact ⟨exists_walk hl hfirst ht (Std.le_of_lt hafter), hafter, hbefore⟩

theorem Lawful.passes (hl : grid.Lawful) (hfirst : grid.align first = some first)
    (hlast : grid.align last = some last)
    (hspans : first.IsLeap ∨ last.IsLeap → grid.Spans first last) : grid.Passes first last := by
  intro t walk hwalk hlt
  by_cases hleap : first.IsLeap ∨ last.IsLeap
  · obtain ⟨next, hnext⟩ := Option.ne_none_iff_exists'.mp (hspans hleap t walk hwalk hlt)
    refine ⟨next, hnext, ?_⟩
    exact hleap.elim (hl.next_lt hfirst · hnext) (hl.next_lt hlast · hnext)
  · obtain ⟨hfirstLeap, hlastLeap⟩ := not_or.mp hleap
    obtain ⟨next, hnext, -, hforward, -⟩ := hl.next_le
      (hwalk.startsAt hl ⟨hfirst, hfirstLeap⟩ ⟨hlast, hlastLeap⟩ hlt) ⟨hlast, hlastLeap⟩ hlt
    exact ⟨next, hnext, hforward⟩

end Grid

namespace GapFill

structure Full (fill : GapFill) (type : DataType) (before after : Sample Row)
    (gap : List (Sample Row)) : Prop where
  ascending : (gap.map (·.timestamp)).Pairwise (· < ·)
  mem_iff : ∀ t, t ∈ gap.map (·.timestamp) ↔
    t ∈ fill.grid.inside before.timestamp after.timestamp
  values : ∀ point ∈ gap, fillSample fill.mode type before after point.timestamp = .ok point

inductive Complete (fill : GapFill) (type : DataType) :
    List (Sample Row) → List (Sample Row) → Prop where
  | empty : Complete fill type [] []
  | last : Complete fill type [sample] [sample]
  | gap : Full fill type before after gap → Complete fill type (after :: rest) out →
      Complete fill type (before :: after :: rest) (before :: gap ++ out)

/-- The boundaries between two samples are no more than the limit. -/
def Small (fill : GapFill) (before after : Sample Row) : Prop :=
  (fill.grid.inside before.timestamp after.timestamp).ncard ≤ fill.limit

/-- Between two samples there is a value at each boundary. -/
def Valued (fill : GapFill) (type : DataType) (before after : Sample Row) : Prop :=
  ∀ t ∈ fill.grid.inside before.timestamp after.timestamp,
    ∃ point, fillSample fill.mode type before after t = .ok point

variable {fill : GapFill} {type : DataType} {stage : String} {before after : Sample Row}
  {gap items : List (Sample Row)} {gaps : List (List (Sample Row))} {ending : Option QueryError}

theorem Full.length_eq (h : Full fill type before after gap) :
    gap.length = (fill.grid.inside before.timestamp after.timestamp).ncard := by
  have hset : fill.grid.inside before.timestamp after.timestamp =
      (gap.map (·.timestamp)).toFinset := by
    ext t
    rw [List.coe_toFinset]
    exact (h.mem_iff t).symm
  have hnodup : (gap.map (·.timestamp)).Nodup :=
    h.ascending.imp fun hlt heq => absurd (heq ▸ hlt) Std.lt_irrefl
  rw [hset, Set.ncard_coe_finset, List.toFinset_card_of_nodup hnodup, List.length_map]

-- ---------------------------------------------------------------------------
-- One gap
-- ---------------------------------------------------------------------------

theorem Full.of_walk (h : fill.grid.Walk before.timestamp boundary
      (before.timestamp :: gap.map (·.timestamp) ++ [boundary]))
    (hdone : ¬ boundary < after.timestamp)
    (hinside : ∀ point ∈ gap, point.timestamp < after.timestamp)
    (hvalues : ∀ point ∈ gap, fillSample fill.mode type before after point.timestamp = .ok point) :
    Full fill type before after gap where
  ascending := (List.pairwise_append.mp h.ascending).1.of_cons
  mem_iff _ := h.mem_inside_iff (Std.not_lt.mp hdone) (List.forall_mem_map.mpr hinside)
  values := hvalues

theorem Reached.full (h : Reached fill type before after gap boundary)
    (hdone : ¬ boundary < after.timestamp) : Full fill type before after gap :=
  .of_walk h.walk hdone h.inside h.values

theorem mem_inside (h : fill.grid.Walk before.timestamp boundary
      (before.timestamp :: gap.map (·.timestamp) ++ [boundary]))
    (hbefore : boundary < after.timestamp) :
    boundary ∈ fill.grid.inside before.timestamp after.timestamp :=
  ⟨⟨_, h⟩, List.rel_of_pairwise_cons h.ascending (by simp), hbefore⟩

theorem exists_full {boundary : Instant} {gap : List (Sample Row)}
    (hp : fill.grid.Passes before.timestamp after.timestamp)
    (hvalued : Valued fill type before after)
    (h : fill.grid.Walk before.timestamp boundary
      (before.timestamp :: gap.map (·.timestamp) ++ [boundary]))
    (hinside : ∀ point ∈ gap, point.timestamp < after.timestamp)
    (hvalues : ∀ point ∈ gap, fillSample fill.mode type before after point.timestamp = .ok point) :
    ∃ rest, Full fill type before after (gap ++ rest) ∧
      (boundary < after.timestamp → rest ≠ []) := by
  by_cases hbefore : boundary < after.timestamp
  · obtain ⟨point, hpoint⟩ := hvalued boundary (mem_inside h hbefore)
    obtain ⟨next, hnext, hforward⟩ := hp boundary _ h hbefore
    have htimestamp := fillSample_timestamp hpoint
    have hwalk : fill.grid.Walk before.timestamp next
        (before.timestamp :: (gap ++ [point]).map (·.timestamp) ++ [next]) := by
      simpa [htimestamp] using h.append (.step hnext hforward .stop)
    obtain ⟨rest, hrest, -⟩ := exists_full hp hvalued hwalk
      (by simpa [or_imp, forall_and, htimestamp] using ⟨hinside, hbefore⟩)
      (by simpa [or_imp, forall_and, htimestamp] using ⟨hvalues, hpoint⟩)
    exact ⟨point :: rest, by simpa using hrest, fun _ => List.cons_ne_nil _ _⟩
  · exact ⟨[], by simpa using Full.of_walk h hbefore hinside hvalues, fun h => absurd h hbefore⟩
termination_by (after.timestamp.place - boundary.place).toNat
decreasing_by
  rw [Instant.lt_def] at hbefore hforward
  omega

theorem Fault.full (h : Fault fill type stage before after gap e)
    (hp : fill.grid.Passes before.timestamp after.timestamp)
    (hlt : before.timestamp < after.timestamp) (hvalued : Valued fill type before after) :
    ∃ whole, Full fill type before after whole ∧ gap = whole.take fill.limit ∧
      fill.limit < whole.length ∧
      e = .eval (.context stage (.gapTooLarge before.timestamp after.timestamp fill.limit)) := by
  -- the grid goes forward wherever it is asked
  have hforward : ∀ t, Asked fill type before after gap t →
      ∃ next, fill.grid.next t = some next ∧ t < next := by
    intro t hasked
    cases hasked with
    | opening => exact hp _ _ .stop hlt
    | point hreached hbefore => exact hp t _ hreached.walk hbefore
  cases h with
  | stalled hasked hnext hle =>
    obtain ⟨next, hnext', hlt⟩ := hforward _ hasked
    obtain rfl := Option.some.inj (hnext.symm.trans hnext')
    exact absurd hlt (Std.not_lt.mpr hle)
  | outOfCalendar hasked hnone =>
    obtain ⟨next, hnext, -⟩ := hforward _ hasked
    simp [hnone] at hnext
  | tooLarge hreached hbefore hlimit =>
    obtain ⟨rest, hfull, hmore⟩ := exists_full hp hvalued hreached.walk hreached.inside
      hreached.values
    have hpos := List.length_pos_iff.mpr (hmore hbefore)
    exact ⟨_, hfull, by rw [← hlimit, List.take_left], by simp [← hlimit, hpos], rfl⟩
  | noValue hreached hbefore _ hvalue =>
    obtain ⟨point, hpoint⟩ := hvalued _ (mem_inside hreached.walk hbefore)
    simp [hpoint] at hvalue

-- ---------------------------------------------------------------------------
-- Whole series
-- ---------------------------------------------------------------------------

theorem Course.complete_or_tooLarge (h : Course fill type stage none items gaps ending)
    (hpasses : items.IsChain fun a b => fill.grid.Passes a.timestamp b.timestamp)
    (hascending : (items.map (·.timestamp)).Pairwise (· < ·))
    (hvalued : items.IsChain (Valued fill type)) :
    (items.IsChain (Small fill) ∧ Complete fill type items (weave items gaps) ∧ ending = none) ∨
      ∃ front before after back out gap, items = front ++ before :: after :: back ∧
        (front ++ [before]).IsChain (Small fill) ∧
        Complete fill type (front ++ [before]) out ∧ Full fill type before after gap ∧
        fill.limit < gap.length ∧ weave items gaps = out ++ gap.take fill.limit ∧
        ending = some (.eval (.context stage
          (.gapTooLarge before.timestamp after.timestamp fill.limit))) := by
  induction h with
  | empty => exact .inl ⟨.nil, .empty, rfl⟩
  | last => exact .inl ⟨.singleton _, .last, rfl⟩
  | @closed before after gap _ rest gaps ending hreached hdone _ ih =>
    have hfull := hreached.full hdone
    have hsmall : Small fill before after := hfull.length_eq.ge.trans hreached.length_le
    rcases ih (List.isChain_cons_cons.mp hpasses).2 hascending.of_cons
      (List.isChain_cons_cons.mp hvalued).2 with
      ⟨hchain, hcomplete, hending⟩ |
      ⟨front, b, a, back, out, last, hitems, hchain, hcomplete, hlast, hlimit, hweave, hending⟩
    · exact .inl ⟨List.isChain_cons_cons.mpr ⟨hsmall, hchain⟩, .gap hfull hcomplete, hending⟩
    · obtain ⟨path, hpath⟩ : ∃ path, front ++ [b] = after :: path := by
        cases front <;> simp_all
      rw [hpath] at hchain hcomplete
      refine .inr ⟨before :: front, b, a, back, before :: gap ++ out, last,
        congrArg (before :: ·) hitems, ?_, ?_, hlast, hlimit, ?_, hending⟩
      · rw [List.cons_append, hpath]
        exact List.isChain_cons_cons.mpr ⟨hsmall, hchain⟩
      · rw [List.cons_append, hpath]
        exact .gap hfull hcomplete
      · rw [weave_cons_cons, hweave, List.append_assoc]
  | @stopped before after gap e rest hfault =>
    have hlt : before.timestamp < after.timestamp :=
      List.rel_of_pairwise_cons hascending (by simp)
    obtain ⟨whole, hwhole, hgap, hlimit, he⟩ := hfault.full (List.isChain_cons_cons.mp hpasses).1
      hlt (List.isChain_cons_cons.mp hvalued).1
    exact .inr ⟨[], before, after, rest, [before], whole, rfl, .singleton _, .last, hwhole, hlimit,
      by simp [hgap], congrArg some he⟩

end GapFill

namespace Rowset

open GapFill (Complete Full Small Valued)

variable {rowset : Rowset} {field : Field} {items : List (Sample Row)}

def sparseDay : List (Sample Row) :=
  [⟨hour 0, [.integer 1]⟩, ⟨hour 2, [.integer 5]⟩, ⟨hour 6, [.integer 9]⟩]

end Rowset

end SeriesQuery
