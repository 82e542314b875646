import SeriesQuery.Proofs.Resample.Align
import SeriesQuery.Resample.GapFill

/-!
# Filled gaps cover the grid

A gap is filled from one boundary of the grid to the next, without a look at
where the next sample lies on the grid. After an alignment both neighbours of a
gap are starts of buckets, so that the boundaries meet the next sample: the
whole series goes along the grid, from its first bucket to its last one.
-/

namespace SeriesQuery

/-- The boundaries of a grid from one to another, both included. -/
inductive Grid.Walk (grid : Grid) : Instant → Instant → List Instant → Prop where
  | stop : Walk grid last last [last]
  | step : grid.next first = some second → first < second → Walk grid second last rest →
      Walk grid first last (first :: rest)

/-- The second instant is later than the first, but not later than the boundary
behind it. -/
def Grid.Adjoins (grid : Grid) (t u : Instant) : Prop :=
  t < u ∧ ∃ boundary, grid.next t = some boundary ∧ u ≤ boundary

namespace Grid.Walk

variable {grid : Grid} {first middle last : Instant} {front back walk : List Instant}

theorem append (h : grid.Walk first middle (front ++ [middle]))
    (h' : grid.Walk middle last (middle :: back)) :
    grid.Walk first last (front ++ middle :: back) := by
  generalize hwalk : front ++ [middle] = walk at h
  induction h generalizing front with
  | stop =>
    obtain ⟨rfl, -⟩ := List.append_eq_singleton_iff.mp hwalk |>.resolve_right (by simp)
    exact h'
  | step hnext hlt hrest ih =>
    cases front with
    | nil =>
      cases hwalk
      cases hrest
    | cons boundary front =>
      cases hwalk
      exact .step hnext hlt (ih h' rfl)

theorem first_le (h : grid.Walk first last walk) : ∀ t ∈ walk, first ≤ t := by
  induction h with
  | stop => exact fun t ht => List.mem_singleton.mp ht ▸ Std.le_refl _
  | step _ hlt _ ih =>
    refine List.forall_mem_cons.mpr ⟨Std.le_refl _, fun t ht => ?_⟩
    have hle := ih t ht
    grind

theorem le (h : grid.Walk first last walk) : first ≤ last := by
  induction h with
  | stop => exact Std.le_refl _
  | step _ hlt _ ih => exact Std.le_of_lt (Std.lt_of_lt_of_le hlt ih)

theorem head_eq (h : grid.Walk first last (t :: walk)) : first = t := by
  cases h <;> rfl

theorem ascending (h : grid.Walk first last walk) : walk.Pairwise (· < ·) := by
  induction h with
  | stop => exact List.pairwise_singleton _ _
  | step _ hlt hrest ih =>
    refine List.pairwise_cons.mpr ⟨fun t ht => ?_, ih⟩
    have hle := hrest.first_le t ht
    grind

theorem next_last (h : grid.Walk first last (front ++ [t, last])) :
    grid.next t = some last ∧ t < last := by
  generalize hwalk : front ++ [t, last] = walk at h
  induction h generalizing front with
  | stop => simp [List.append_eq_cons_iff] at hwalk
  | step hnext hlt hrest ih =>
    cases front with
    | nil =>
      obtain ⟨rfl, rfl⟩ := List.cons.inj hwalk
      rw [← hrest.head_eq]
      exact ⟨hnext, hlt⟩
    | cons _ front => exact ih (List.cons.inj hwalk).2

end Grid.Walk

-- ---------------------------------------------------------------------------
-- Series in order
-- ---------------------------------------------------------------------------

theorem InOrder.head?_le {items : List (Sample α)} (h : InOrder items)
    (hfirst : items.head? = some first) : ∀ s ∈ items, first.timestamp ≤ s.timestamp := by
  obtain ⟨rest, rfl⟩ := List.head?_eq_some_iff.mp hfirst
  exact h.head_le

theorem InOrder.le_getLast? {items : List (Sample α)} (h : InOrder items)
    (hlast : items.getLast? = some last) : ∀ s ∈ items, s.timestamp ≤ last.timestamp := by
  obtain ⟨front, rfl⟩ := List.getLast?_eq_some_iff.mp hlast
  refine List.forall_mem_append.mpr ⟨fun s hs => ?_, by simp [Std.le_refl]⟩
  exact (List.pairwise_append.mp h).2.2 s hs last List.mem_cons_self

theorem head?_of_forall_le {l : List Instant} (ho : l.Pairwise (· < ·)) (hmem : b ∈ l)
    (hle : ∀ t ∈ l, b ≤ t) : l.head? = some b := by
  cases l with
  | nil => cases hmem
  | cons t rest =>
    have hbt := hle t List.mem_cons_self
    rcases List.mem_cons.mp hmem with rfl | hrest
    · rfl
    · have htb := List.rel_of_pairwise_cons ho hrest
      grind

theorem getLast?_of_forall_le {l : List Instant} (ho : l.Pairwise (· < ·)) (hmem : b ∈ l)
    (hle : ∀ t ∈ l, t ≤ b) : l.getLast? = some b := by
  obtain ⟨last, hlast⟩ := Option.ne_none_iff_exists'.mp
    (fun hnone => List.ne_nil_of_mem hmem (List.getLast?_eq_none_iff.mp hnone))
  obtain ⟨front, rfl⟩ := List.getLast?_eq_some_iff.mp hlast
  have hbound := hle last (by simp)
  rcases List.mem_append.mp hmem with hfront | hb
  · have hlt := (List.pairwise_append.mp ho).2.2 b hfront last List.mem_cons_self
    grind
  · rw [hlast, List.mem_singleton.mp hb]

theorem filter_of_sublist {part whole : List (Sample Row)} (h : part.Sublist whole)
    (ho : (whole.map (·.timestamp)).Pairwise (· < ·)) :
    whole.filter (fun s => s.timestamp ∈ part.map (·.timestamp)) = part := by
  induction h with
  | slnil => rfl
  | cons sample hpart ih =>
    have hnew : sample.timestamp ∉ _ := fun hmem =>
      absurd (List.rel_of_pairwise_cons ho ((hpart.map _).mem hmem)) Std.lt_irrefl
    rw [List.filter_cons_of_neg (by simpa using hnew), ih (List.Pairwise.of_cons ho)]
  | @cons_cons part whole sample _ ih =>
    rw [List.filter_cons_of_pos (by simp)]
    have hrest : ∀ s ∈ whole, (decide (s.timestamp ∈ (sample :: part).map (·.timestamp))) =
        decide (s.timestamp ∈ part.map (·.timestamp)) := by
      intro s hs
      have hlt := List.rel_of_pairwise_cons ho (List.mem_map_of_mem hs)
      have hne : s.timestamp ≠ sample.timestamp := by grind
      simp only [List.map_cons, List.mem_cons, hne, false_or]
    rw [List.filter_congr hrest, ih (List.Pairwise.of_cons ho)]

theorem neighbours {front back : List (Sample Row)} {before after : Sample Row}
    (ho : ((front ++ before :: after :: back).map (·.timestamp)).Pairwise (· < ·))
    (hbefore : before.timestamp < t) (hafter : t < after.timestamp) :
    ((front ++ before :: after :: back).filter (·.timestamp < t)).getLast? = some before ∧
      ((front ++ before :: after :: back).filter (t < ·.timestamp)).head? = some after := by
  rw [List.map_append, List.pairwise_append] at ho
  obtain ⟨-, ho, hfront⟩ := ho
  have hearlier : ∀ s ∈ front, s.timestamp < t := fun s hs => by
    have hlt := hfront s.timestamp (List.mem_map_of_mem hs) before.timestamp (by simp)
    grind
  have hlater : ∀ s ∈ back, t < s.timestamp := fun s hs => by
    have hlt := List.rel_of_pairwise_cons (List.Pairwise.of_cons ho)
      (List.mem_map_of_mem (f := (·.timestamp)) hs)
    grind
  constructor
  · have hback : (after :: back).filter (·.timestamp < t) = [] := by
      refine List.filter_eq_nil_iff.mpr (List.forall_mem_cons.mpr ⟨by grind, fun s hs => ?_⟩)
      have hlt := hlater s hs
      grind
    rw [List.filter_append, List.filter_cons_of_pos (by simpa using hbefore), hback,
      List.getLast?_concat]
  · have hfront : front.filter (t < ·.timestamp) = [] := by
      refine List.filter_eq_nil_iff.mpr fun s hs => ?_
      have hlt := hearlier s hs
      grind
    rw [List.filter_append, hfront, List.nil_append, List.filter_cons_of_neg (by grind),
      List.filter_cons_of_pos (by simpa using hafter), List.head?_cons]

namespace GapFill

inductive Fills (fill : GapFill) (type : DataType) (before after : Sample Row) :
    Instant → List (Sample Row) → Prop where
  | done : ¬ boundary < after.timestamp → Fills fill type before after boundary []
  | point : boundary < after.timestamp →
      fillSample fill.mode type before after boundary = .ok sample →
      fill.grid.next boundary = some next → boundary < next →
      Fills fill type before after next gap →
      Fills fill type before after boundary (sample :: gap)

/-- A series and what it becomes if its gaps are filled without an error, given
the sample before it. -/
inductive Filled (fill : GapFill) (type : DataType) :
    Option (Sample Row) → List (Sample Row) → List (Sample Row) → Prop where
  | nil : Filled fill type before [] []
  | first : Filled fill type (some sample) samples out →
      Filled fill type none (sample :: samples) (sample :: out)
  | gap : fill.grid.next before.timestamp = some boundary → before.timestamp < boundary →
      Fills fill type before sample boundary gap →
      Filled fill type (some sample) samples out →
      Filled fill type (some before) (sample :: samples) (gap ++ sample :: out)

variable {fill : GapFill} {type : DataType} {before after sample : Sample Row}
  {before? : Option (Sample Row)} {pull continued : Pull (Sample Row)}
  {samples gap out : List (Sample Row)}

-- ---------------------------------------------------------------------------
-- One gap
-- ---------------------------------------------------------------------------

theorem fillSample_timestamp {mode : FillMode}
    (h : fillSample mode type before after boundary = .ok sample) :
    sample.timestamp = boundary := by
  cases mode with
  | forwardFill =>
    cases h
    rfl
  | linear =>
    obtain ⟨value, -, rfl⟩ := map_eq_ok.mp h
    rfl

theorem failed_ne_ok {e : EvalError} : (failed stage e).answers ≠ out.map .ok := by
  cases out <;> simp [failed, Pull.failed]

theorem fillFrom_answers
    (h : (fillFrom fill type stage before after continued budget boundary).answers =
      out.map .ok) :
    ∃ gap rest, out = gap ++ rest ∧ Fills fill type before after boundary gap ∧
      continued.answers = rest.map .ok := by
  induction budget generalizing boundary out with
  | zero =>
    rw [fillFrom] at h
    split at h
    · exact absurd h failed_ne_ok
    · next hdone => exact ⟨[], out, rfl, .done hdone, h⟩
  | succ budget ih =>
    rw [fillFrom] at h
    split at h
    · next hbefore =>
      split at h
      · exact absurd h failed_ne_ok
      · next sample hsample =>
        split at h
        · cases out <;> simp [Pull.failed] at h
        · next next hnext =>
          split at h
          · exact absurd h failed_ne_ok
          · next hforward =>
            rw [Pull.answers_item] at h
            obtain ⟨_, out, rfl, hs, hout⟩ := List.map_eq_cons_iff.mp h.symm
            cases hs
            obtain ⟨gap, rest, rfl, hgap, hrest⟩ := ih hout.symm
            exact ⟨sample :: gap, rest, rfl,
              .point hbefore hsample hnext (by grind) hgap, hrest⟩
    · next hdone => exact ⟨[], out, rfl, .done hdone, h⟩

theorem Fills.walk (hl : fill.grid.Lawful) (h : Fills fill type before after boundary gap)
    (hb : fill.grid.StartsAt boundary) (ha : fill.grid.StartsAt after.timestamp)
    (hle : boundary ≤ after.timestamp) :
    fill.grid.Walk boundary after.timestamp (gap.map (·.timestamp) ++ [after.timestamp]) := by
  induction h with
  | done hdone =>
    have heq : after.timestamp = _ := Std.le_antisymm (Std.not_lt.mp hdone) hle
    exact heq ▸ .stop
  | point hbefore hsample hnext hforward _ ih =>
    obtain ⟨next, hnext', hstart, -, hle'⟩ := hl.next_le hb ha hbefore
    obtain rfl := Option.some.inj (hnext.symm.trans hnext')
    rw [List.map_cons, fillSample_timestamp hsample]
    exact .step hnext hforward (ih hstart hle')

theorem Fills.mem (h : Fills fill type before after boundary gap) :
    ∀ point ∈ gap, boundary ≤ point.timestamp ∧ point.timestamp < after.timestamp ∧
      fillSample fill.mode type before after point.timestamp = .ok point := by
  induction h with
  | done => exact fun point hpoint => absurd hpoint List.not_mem_nil
  | point hbefore hsample _ hforward _ ih =>
    have htimestamp := fillSample_timestamp hsample
    refine List.forall_mem_cons.mpr ⟨?_, fun point hpoint => ?_⟩
    · rw [htimestamp]
      exact ⟨Std.le_refl _, hbefore, hsample⟩
    · obtain ⟨hle, hlt, hpoint⟩ := ih point hpoint
      exact ⟨by grind, hlt, hpoint⟩

theorem Fills.adjoin (h : Fills fill type before after boundary gap)
    (hnext : fill.grid.next t = some boundary) (hforward : t < boundary)
    (hlt : t < after.timestamp) (hrest : (after.timestamp :: rest).IsChain fill.grid.Adjoins) :
    (t :: (gap.map (·.timestamp) ++ after.timestamp :: rest)).IsChain fill.grid.Adjoins := by
  induction h generalizing t with
  | done hdone => exact .cons_cons ⟨hlt, _, hnext, Std.not_lt.mp hdone⟩ hrest
  | point hbefore hsample hnext' hforward' _ ih =>
    rw [List.map_cons, fillSample_timestamp hsample]
    exact .cons_cons ⟨hforward, _, hnext, Std.le_refl _⟩ (ih hnext' hforward' hbefore)

-- ---------------------------------------------------------------------------
-- Whole series
-- ---------------------------------------------------------------------------

theorem run_answers (h : (run fill type stage before? pull).answers = out.map .ok) :
    ∃ samples, pull.answers = samples.map .ok ∧ Filled fill type before? samples out := by
  induction pull generalizing before? out with
  | stop =>
    rw [run, Pull.answers_stop] at h
    obtain rfl := List.map_eq_nil_iff.mp h.symm
    exact ⟨[], rfl, .nil⟩
  | item answer next ih =>
    cases answer with
    | error e =>
      rw [run] at h
      cases out <;> simp [Pull.failed] at h
    | ok sample =>
      have hcontinued : ∀ {out : List (Sample Row)},
          (Pull.item (.ok sample) fun cancelled =>
            run fill type stage (some sample) (next cancelled)).answers = out.map .ok →
          ∃ samples rest, (next false).answers = samples.map .ok ∧ out = sample :: rest ∧
            Filled fill type (some sample) samples rest := by
        intro out hout
        rw [Pull.answers_item] at hout
        obtain ⟨_, rest, rfl, hs, hrest⟩ := List.map_eq_cons_iff.mp hout.symm
        cases hs
        obtain ⟨samples, hsamples, hfilled⟩ := ih false hrest.symm
        exact ⟨samples, rest, hsamples, rfl, hfilled⟩
      cases before? with
      | none =>
        obtain ⟨samples, rest, hsamples, rfl, hfilled⟩ := hcontinued h
        exact ⟨sample :: samples, by simp [hsamples], .first hfilled⟩
      | some before =>
        simp only [run] at h
        split at h
        · cases out <;> simp [Pull.failed] at h
        · next boundary hboundary =>
          split at h
          · exact absurd h failed_ne_ok
          · next hforward =>
            obtain ⟨gap, rest, rfl, hgap, hrest⟩ := fillFrom_answers h
            obtain ⟨samples, rest, hsamples, rfl, hfilled⟩ := hcontinued hrest
            exact ⟨sample :: samples, by simp [hsamples],
              .gap hboundary (by grind) hgap hfilled⟩

theorem Filled.sublist (h : Filled fill type before? samples out) : samples.Sublist out := by
  induction h with
  | nil => exact .slnil
  | first _ ih => exact ih.cons_cons _
  | gap _ _ _ _ ih => exact (ih.cons_cons _).trans (List.sublist_append_right _ _)

theorem Filled.head?_eq (h : Filled fill type none samples out) :
    out.head? = samples.head? := by
  cases h <;> rfl

theorem Filled.getLast?_eq (h : Filled fill type before? samples out) :
    out.getLast? = samples.getLast? := by
  induction h with
  | nil => rfl
  | first _ ih => rw [List.getLast?_cons, List.getLast?_cons, ih]
  | gap _ _ _ _ ih =>
    rw [List.getLast?_append_of_ne_nil _ (List.cons_ne_nil _ _), List.getLast?_cons,
      List.getLast?_cons, ih]

theorem Filled.adjoin (h : Filled fill type before? samples out)
    (hascending : ((before?.toList ++ samples).map (·.timestamp)).Pairwise (· < ·)) :
    ((before?.toList ++ out).map (·.timestamp)).IsChain fill.grid.Adjoins := by
  induction h with
  | @nil before? => cases before? <;> simp
  | first _ ih => exact ih hascending
  | gap hnext hforward hgap _ ih =>
    simp only [Option.toList_some, List.singleton_append, List.map_cons,
      List.map_append] at hascending ih ⊢
    exact hgap.adjoin hnext hforward (List.rel_of_pairwise_cons hascending List.mem_cons_self)
      (ih hascending.of_cons)

theorem Filled.ascending (h : Filled fill type none samples out)
    (hascending : (samples.map (·.timestamp)).Pairwise (· < ·)) :
    (out.map (·.timestamp)).Pairwise (· < ·) :=
  List.isChain_iff_pairwise.mp ((h.adjoin hascending).imp fun _ _ hadjoins => hadjoins.1)

theorem Filled.walk (hl : fill.grid.Lawful)
    (h : Filled fill type (some before) samples out)
    (hstart : ∀ s ∈ before :: samples, fill.grid.StartsAt s.timestamp)
    (hascending : ((before :: samples).map (·.timestamp)).Pairwise (· < ·))
    (hlast : ((before :: samples).map (·.timestamp)).getLast? = some last) :
    fill.grid.Walk before.timestamp last ((before :: out).map (·.timestamp)) := by
  generalize hbefore? : some before = before? at h
  induction h generalizing before with
  | nil =>
    obtain rfl : before.timestamp = last := by simpa using hlast
    exact .stop
  | first => cases hbefore?
  | @gap _ previous sample _ samples out hnext hforward hgap _ ih =>
    cases hbefore?
    obtain ⟨hb, hsamples⟩ := List.forall_mem_cons.mp hstart
    have hs := hsamples sample List.mem_cons_self
    have hlt : previous.timestamp < sample.timestamp :=
      List.rel_of_pairwise_cons hascending (by simp)
    obtain ⟨boundary, hnext', hboundary, -, hle⟩ := hl.next_le hb hs hlt
    obtain rfl := Option.some.inj (hnext.symm.trans hnext')
    have hrest := ih hsamples (List.Pairwise.of_cons hascending) (by simpa using hlast) rfl
    have hwalk := (hgap.walk hl hboundary hs hle).append hrest
    simp only [List.map_cons, List.map_append] at hwalk ⊢
    exact .step hnext hforward hwalk

theorem Filled.mem (h : Filled fill type before? samples out) (hpoint : point ∈ out)
    (hnew : point ∉ samples) :
    ∃ front before after back, before?.toList ++ samples = front ++ before :: after :: back ∧
      before.timestamp < point.timestamp ∧ point.timestamp < after.timestamp ∧
      fillSample fill.mode type before after point.timestamp = .ok point := by
  induction h with
  | nil => exact absurd hpoint List.not_mem_nil
  | first _ ih =>
    obtain ⟨hne, hnew⟩ := List.ne_and_not_mem_of_not_mem_cons hnew
    exact ih ((List.mem_cons.mp hpoint).resolve_left hne) hnew
  | @gap _ before sample _ samples _ _ hforward hgap _ ih =>
    obtain ⟨hne, hnew⟩ := List.ne_and_not_mem_of_not_mem_cons hnew
    rcases List.mem_append.mp hpoint with hpoint | hpoint
    · obtain ⟨hle, hlt, hvalue⟩ := hgap.mem _ hpoint
      exact ⟨[], before, sample, samples, rfl, by grind, hlt, hvalue⟩
    · obtain ⟨front, b, a, back, heq, hpoint⟩ :=
        ih ((List.mem_cons.mp hpoint).resolve_left hne) hnew
      exact ⟨before :: front, b, a, back, congrArg (before :: ·) heq, hpoint⟩

theorem Filled.covers {first last : Instant} (hl : fill.grid.Lawful)
    (h : Filled fill type none samples out)
    (hstart : ∀ s ∈ samples, fill.grid.StartsAt s.timestamp)
    (hascending : (samples.map (·.timestamp)).Pairwise (· < ·))
    (hfirst : (samples.map (·.timestamp)).head? = some first)
    (hlast : (samples.map (·.timestamp)).getLast? = some last) :
    fill.grid.Walk first last (out.map (·.timestamp)) := by
  cases h with
  | nil => cases hfirst
  | first h =>
    cases hfirst
    exact h.walk hl hstart hascending hlast

theorem Filled.neighbours (h : Filled fill type none samples out)
    (hascending : (samples.map (·.timestamp)).Pairwise (· < ·)) (hpoint : point ∈ out)
    (hnew : point.timestamp ∉ samples.map (·.timestamp)) :
    ∃ before after,
      (samples.filter (·.timestamp < point.timestamp)).getLast? = some before ∧
      (samples.filter (point.timestamp < ·.timestamp)).head? = some after ∧
      fillSample fill.mode type before after point.timestamp = .ok point := by
  obtain ⟨front, before, after, back, heq, hbefore, hafter, hvalue⟩ :=
    h.mem hpoint fun hmem => hnew (List.mem_map_of_mem hmem)
  rw [Option.toList_none, List.nil_append] at heq
  subst heq
  obtain ⟨hlatest, hnext⟩ := SeriesQuery.neighbours hascending hbefore hafter
  exact ⟨before, after, hlatest, hnext, hvalue⟩

end GapFill

-- ---------------------------------------------------------------------------
-- Filled alignments
-- ---------------------------------------------------------------------------

namespace Alignment

theorem transduced_spans {items samples : List (Sample Row)} (hl : grid.Lawful) (field : Field)
    (ho : InOrder items) (hfirst : items.head? = some first) (hlast : items.getLast? = some last)
    (h : transduced (step grid field.dataType ("align(" ++ field.urn ++ ")")) initial
      (items.map .ok) = samples.map .ok) :
    ∃ start finish, grid.align first.timestamp = some start ∧
      grid.align last.timestamp = some finish ∧
      (samples.map (·.timestamp)).head? = some start ∧
      (samples.map (·.timestamp)).getLast? = some finish := by
  obtain ⟨hascending, hmem⟩ := transduced_timestamps hl.toFloors ho h
  have hcalendar := align_ne_none h
  obtain ⟨start, hstart⟩ := Option.ne_none_iff_exists'.mp
    (hcalendar first (List.mem_of_head? hfirst))
  obtain ⟨finish, hfinish⟩ := Option.ne_none_iff_exists'.mp
    (hcalendar last (List.mem_of_getLast? hlast))
  have hbuckets : ∀ b ∈ samples.map (·.timestamp), start ≤ b ∧ b ≤ finish := by
    intro b hb
    obtain ⟨s, hs, halign⟩ := (hmem b).mp hb
    exact ⟨hl.mono (ho.head?_le hfirst s hs) hstart halign,
      hl.mono (ho.le_getLast? hlast s hs) halign hfinish⟩
  exact ⟨start, finish, hstart, hfinish,
    head?_of_forall_le hascending ((hmem start).mpr ⟨first, List.mem_of_head? hfirst, hstart⟩)
      fun b hb => (hbuckets b hb).1,
    getLast?_of_forall_le hascending
      ((hmem finish).mpr ⟨last, List.mem_of_getLast? hlast, hfinish⟩)
      fun b hb => (hbuckets b hb).2⟩

end Alignment

namespace Rowset

theorem gapFill_eq_ok_of_mode (fill : GapFill) {rowset : Rowset} {field : Field}
    (hfields : rowset.fields = [field])
    (hmode : fill.mode = .linear → field.dataType.isNumeric = true) :
    rowset.gapFill fill = .ok ⟨[field], Stream.guard fun cancelled =>
      fill.run field.dataType ("gap_fill(" ++ field.urn ++ ")") none (rowset.rows cancelled)⟩ := by
  simp only [gapFill, bind_eq_ok, throw_unless_eq_ok, pure_eq_ok, QueryError.compiling_eq_ok,
    singleField_eq_ok]
  exact ⟨field, hfields, by simpa using hmode, rfl⟩

theorem gapFill_eq_ok (fill : GapFill) {rowset : Rowset} {field : Field}
    (hfields : rowset.fields = [field]) (hnumeric : field.dataType.isNumeric = true) :
    rowset.gapFill fill = .ok ⟨[field], Stream.guard fun cancelled =>
      fill.run field.dataType ("gap_fill(" ++ field.urn ++ ")") none (rowset.rows cancelled)⟩ :=
  gapFill_eq_ok_of_mode fill hfields fun _ => hnumeric

/-- An aligned series in order whose gaps are filled goes from the bucket of its
first sample to that of its last one, never past a boundary, and along the grid if
none of its buckets starts in a leap second. What the alignment answered is kept,
and everything else is filled in from its neighbours there. -/
theorem gapFill_align_walks {spec : PeriodSpec} {period : Period}
    (hspec : spec.build = .ok period) (mode : FillMode) (limit : Nat) {rowset : Rowset}
    {field : Field} {items : List (Sample Row)} (hfields : rowset.fields = [field])
    (hnumeric : field.dataType.isNumeric = true) (hrequired : field.required = true)
    (hanswers : rowset.rows.answers = items.map .ok) (ho : InOrder items)
    (hfirst : items.head? = some first) (hlast : items.getLast? = some last) :
    ∃ aligned filled, rowset.align period.grid = .ok aligned ∧
      aligned.gapFill ⟨period.grid, mode, limit⟩ = .ok filled ∧
      ∀ samples out : List (Sample Row), aligned.rows.answers = samples.map .ok →
        filled.rows.answers = out.map .ok →
        ∃ start finish, period.grid.align first.timestamp = some start ∧
          period.grid.align last.timestamp = some finish ∧
          (out.map (·.timestamp)).head? = some start ∧
          (out.map (·.timestamp)).getLast? = some finish ∧
          (out.map (·.timestamp)).IsChain period.grid.Adjoins ∧
          ((∀ s ∈ samples, ¬ s.timestamp.IsLeap) →
            period.grid.Walk start finish (out.map (·.timestamp))) ∧
          (out.map (·.timestamp)).Pairwise (· < ·) ∧
          out.filter (fun s => s.timestamp ∈ samples.map (·.timestamp)) = samples ∧
          ∀ point ∈ out, point.timestamp ∉ samples.map (·.timestamp) →
            ∃ before after,
              (samples.filter (·.timestamp < point.timestamp)).getLast? = some before ∧
              (samples.filter (point.timestamp < ·.timestamp)).head? = some after ∧
              match mode with
              | .forwardFill => point.value = [before.value.first]
              | .linear => ∃ value, point.value = [value] ∧
                interpolate field.dataType before.scalar after.scalar point.timestamp =
                  .ok value := by
  refine ⟨_, _, align_eq_ok period.grid hfields hnumeric hrequired,
    gapFill_eq_ok _ rfl hnumeric, fun samples out hsamples hout => ?_⟩
  rw [Stream.answers_guard, untilError_eq_map_ok, Stream.answers] at hout
  obtain ⟨samples', hsamples', hfilled⟩ := GapFill.run_answers hout
  obtain rfl : samples' = samples :=
    List.map_injective_iff.mpr (fun _ _ h => Except.ok.inj h) (hsamples'.symm.trans hsamples)
  rw [Stream.answers_guard, Stream.answers_transduce, hanswers, untilError_eq_map_ok] at hsamples
  have hl := PeriodSpec.lawful hspec
  obtain ⟨hascending, hmem⟩ := Alignment.transduced_timestamps hl.toFloors ho hsamples
  obtain ⟨start, finish, hstart, hfinish, hhead, hend⟩ :=
    Alignment.transduced_spans hl field ho hfirst hlast hsamples
  have hstarts : ∀ s ∈ samples', period.grid.align s.timestamp = some s.timestamp := by
    intro s hs
    obtain ⟨item, -, halign⟩ := (hmem s.timestamp).mp (List.mem_map_of_mem hs)
    exact hl.align_start halign
  refine ⟨start, finish, hstart, hfinish, ?_, ?_, hfilled.adjoin hascending,
    fun hordinary => hfilled.covers hl (fun s hs => ⟨hstarts s hs, hordinary s hs⟩) hascending
      hhead hend,
    hfilled.ascending hascending,
    filter_of_sublist hfilled.sublist (hfilled.ascending hascending), fun point hpoint hnew => ?_⟩
  · rw [List.head?_map, hfilled.head?_eq, ← List.head?_map, hhead]
  · rw [List.getLast?_map, hfilled.getLast?_eq, ← List.getLast?_map, hend]
  obtain ⟨before, after, hbefore, hafter, hvalue⟩ :=
    hfilled.neighbours hascending hpoint hnew
  refine ⟨before, after, hbefore, hafter, ?_⟩
  cases mode with
  | forwardFill => rw [← Except.ok.inj hvalue]
  | linear =>
    obtain ⟨value, hvalue, hpoint⟩ := map_eq_ok.mp hvalue
    exact ⟨value, by rw [← hpoint], hvalue⟩

def march : Instant := .ofNanos 5094000000000000
def april : Instant := .ofNanos 7772400000000000

def quarter : List (Sample Row) := [⟨january, [.integer 1]⟩, ⟨april, [.integer 7]⟩]

theorem quarter_inOrder : InOrder quarter := by
  simp only [InOrder, quarter]
  decide

theorem gapFill_align_quarter :
    ∃ period, (PeriodSpec.calendar .month 3600).build = .ok period ∧ InOrder quarter ∧
      ∃ aligned filled,
        Rowset.align period.grid ⟨[.plain "m" .integer true], .ofAnswers (quarter.map .ok)⟩ =
          .ok aligned ∧
        aligned.gapFill ⟨period.grid, .forwardFill, 2⟩ = .ok filled ∧
        aligned.rows.answers = quarter.map .ok ∧
        filled.rows.answers = [⟨january, [.integer 1]⟩, ⟨february, [.integer 1]⟩,
          ⟨march, [.integer 1]⟩, ⟨april, [.integer 7]⟩].map .ok ∧
        period.grid.Walk january april [january, february, march, april] := by
  let period : Period := .calendar ⟨.month, ⟨3600, by decide, by decide⟩⟩
  have hspec : (PeriodSpec.calendar .month 3600).build = .ok period := rfl
  have hordinary : ∀ s ∈ quarter, ¬ s.timestamp.IsLeap := by decide
  have hjanuary : period.grid.align january = some january := by decide
  have hapril : period.grid.align april = some april := by decide
  have hnext : period.grid.next january = some february ∧
      period.grid.next february = some march ∧ period.grid.next march = some april := by decide
  have horder : january ≠ april ∧ ¬ february ≤ january ∧ ¬ march ≤ february ∧ ¬ april ≤ march ∧
      february < april ∧ march < april ∧ ¬ april < april := by decide
  obtain ⟨aligned, filled, haligned, hfilled, hwalks⟩ := @gapFill_align_walks _ _ _ period hspec
    .forwardFill 2 ⟨[.plain "m" .integer true], .ofAnswers (quarter.map .ok)⟩ _ _ rfl rfl rfl rfl
    quarter_inOrder rfl rfl
  have haligned' := (align_eq_ok period.grid rfl rfl rfl).symm.trans haligned
  have hfields : aligned.fields = [.plain "m" .integer true] := by
    cases haligned'
    rfl
  have hfilled' := (gapFill_eq_ok _ hfields rfl).symm.trans hfilled
  have hsamples : aligned.rows.answers = quarter.map .ok := by
    cases haligned'
    simp [quarter, Stream.answers, Stream.ofAnswers, Pull.ofAnswers, Stream.guard, Pull.guard,
      Stream.transduce, Pull.transduce, Alignment.step, hjanuary, hapril, horder,
      Alignment.initial, Alignment.bucketSample, QueryError.evaluating, Row.first]
  have hout : filled.rows.answers = [⟨january, [.integer 1]⟩, ⟨february, [.integer 1]⟩,
      ⟨march, [.integer 1]⟩, ⟨april, [.integer 7]⟩].map .ok := by
    cases haligned'
    cases hfilled'
    simp [quarter, Stream.answers, Stream.ofAnswers, Pull.ofAnswers, Stream.guard, Pull.guard,
      Stream.transduce, Pull.transduce, Alignment.step, hjanuary, hapril, horder,
      Alignment.initial, Alignment.bucketSample, QueryError.evaluating, Row.first,
      GapFill.run, GapFill.fillFrom, GapFill.fillSample, hnext]
  obtain ⟨start, finish, hstart, hfinish, -, -, -, hwalk, -⟩ := hwalks _ _ hsamples hout
  obtain rfl := Option.some.inj (hjanuary.symm.trans hstart)
  obtain rfl := Option.some.inj (hapril.symm.trans hfinish)
  exact ⟨period, hspec, quarter_inOrder, aligned, filled, haligned, hfilled, hsamples, hout,
    hwalk hordinary⟩

/-- A second of the first ten minutes of 2017. -/
def newYear (second : Fin 600) : Instant :=
  .ofNanos ((1483228800 + second.val) * 1000000000) (by simp only [Instant.firstNanos]; omega)
    (by simp only [Instant.lastNanos]; omega)

/-- A tenth of the leap second before. -/
def yearEnd (tenth : Fin 10) : Instant :=
  ⟨1483228799, 1000000000 + tenth.val * 100000000, by decide, by decide, .inr (by omega)⟩

def acrossNewYear : List (Sample Row) :=
  [⟨yearEnd 5, [.integer 1]⟩, ⟨newYear 180, [.integer 7]⟩]

/-- A minute after the leap second that starts a bucket lies a second before the
bucket behind it, and all that is filled in after it is off the grid like that. -/
theorem acrossNewYear_leaves_grid :
    ∃ period aligned filled, (PeriodSpec.fixed 60 0).build = .ok period ∧
      InOrder acrossNewYear ∧
      period.grid.align (yearEnd 5) = some (yearEnd 0) ∧
      period.grid.align (newYear 180) = some (newYear 180) ∧
      Rowset.align period.grid ⟨[.plain "m" .integer true], .ofAnswers (acrossNewYear.map .ok)⟩ =
        .ok aligned ∧
      aligned.gapFill ⟨period.grid, .forwardFill, 5⟩ = .ok filled ∧
      aligned.rows.answers = [⟨yearEnd 0, [.integer 1]⟩, ⟨newYear 180, [.integer 7]⟩].map .ok ∧
      filled.rows.answers = [⟨yearEnd 0, [.integer 1]⟩, ⟨newYear 59, [.integer 1]⟩,
        ⟨newYear 119, [.integer 1]⟩, ⟨newYear 179, [.integer 1]⟩,
        ⟨newYear 180, [.integer 7]⟩].map .ok ∧
      ¬ period.grid.Walk (yearEnd 0) (newYear 180)
        [yearEnd 0, newYear 59, newYear 119, newYear 179, newYear 180] := by
  let period : Period := .fixed ⟨60000, .utc, by decide⟩
  have horder : InOrder acrossNewYear := by
    simp only [InOrder, acrossNewYear]
    decide
  refine ⟨period, _, _, rfl, horder, by decide, by decide, align_eq_ok _ rfl rfl rfl,
    gapFill_eq_ok _ rfl rfl, rfl, rfl, fun hwalk => ?_⟩
  have hfront : period.grid.Walk (yearEnd 0) (newYear 180)
      ([yearEnd 0, newYear 59, newYear 119] ++ [newYear 179, newYear 180]) := hwalk
  exact absurd hfront.next_last.1 (by decide)

end Rowset

end SeriesQuery
