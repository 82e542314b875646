import SeriesQuery.Proofs.Resample.GapFill
import SeriesQuery.Proofs.Stream.Chronological

/-!
# Resampling twice changes nothing

Behind an alignment each row stands on the start of a bucket, later than the
rows before it, and another alignment on the same grid hands such rows on one by
one. Where the gaps are filled as well, no row lies past the boundary behind the
one before it, so that there is nothing left to fill, in whatever mode and however
small the limit. This is said of the whole stream, its errors
and the cancellations of its puller included.
-/

namespace SeriesQuery

open Grid (OnStarts)

namespace Alignment

variable {grid : Grid} {type : DataType} {alignment : Alignment} {before : Option Instant}
  {answers : List (Except QueryError (Sample Row))} {seen : List (Sample Row)}

theorem step_onStart {row : Sample Row} (hs : grid.align row.timestamp = some row.timestamp)
    (hb : ∀ b ∈ alignment.bucket, b < row.timestamp)
    (hp : alignment.previous = none → row.value = [row.value.first]) :
    step grid type stage alignment row = (⟨some row.timestamp, some row⟩, some (.ok row)) := by
  have hne : alignment.bucket ≠ some row.timestamp := fun hbucket =>
    absurd (hb _ hbucket) Std.lt_irrefl
  simp only [step, hs, if_neg hne]
  cases hprevious : alignment.previous with
  | none =>
    simp only [bucketSample, ← hp hprevious]
    rfl
  | some previous => simp only [bucketSample, if_true]; rfl

theorem untilError_transduced (h : OnStarts grid before answers)
    (hb : alignment.bucket = before) (hp : alignment.previous = none → before = none) :
    untilError (transduced (step grid type stage) alignment (untilError answers)) =
      untilError answers := by
  induction h generalizing alignment with
  | stop => rfl
  | failed => rfl
  | row hs hlater hsingle _ ih =>
    rw [untilError, transduced, step_onStart hs (hb ▸ hlater) fun hnone => hsingle (hp hnone)]
    simp only [untilError]
    rw [ih rfl fun hnone => absurd hnone (Option.some_ne_none _)]

end Alignment

-- ---------------------------------------------------------------------------
-- Rows without errors
-- ---------------------------------------------------------------------------

theorem Grid.Walk.starts {grid : Grid} {first last : Instant} {walk : List Instant}
    (hl : grid.Lawful) (h : grid.Walk first last walk) (hfirst : grid.StartsAt first)
    (hlast : grid.StartsAt last) : ∀ t ∈ walk, grid.StartsAt t := by
  induction h with
  | stop => simpa using hlast
  | step hnext hlt hrest ih =>
    obtain ⟨second, hsecond, hstart, -⟩ :=
      hl.next_le hfirst hlast (Std.lt_of_lt_of_le hlt hrest.le)
    obtain rfl := Option.some.inj (hnext.symm.trans hsecond)
    exact List.forall_mem_cons.mpr ⟨hfirst, ih hstart hlast⟩

namespace GapFill

variable {fill : GapFill} {type : DataType} {before after : Sample Row}
  {pull continued : Pull (Sample Row)} {samples rows : List (Sample Row)}

-- ---------------------------------------------------------------------------
-- The first filling
-- ---------------------------------------------------------------------------

theorem Filled.onStarts_iff (h : Filled fill type none samples rows)
    (hs : OnStarts fill.grid none (samples.map .ok)) :
    OnStarts fill.grid none (rows.map .ok) ↔
      ∀ row ∈ rows, fill.grid.align row.timestamp = some row.timestamp := by
  obtain ⟨-, hascending, -, hsingle⟩ := Grid.onStarts_map_ok.mp hs
  rw [Grid.onStarts_map_ok]
  refine ⟨And.left, fun hrows =>
    ⟨hrows, h.ascending hascending, fun b hb => absurd hb (by simp), ?_⟩⟩
  rw [h.head?_eq]
  exact hsingle

theorem Filled.startsAt (hl : fill.grid.Lawful) (h : Filled fill type none samples rows)
    (hs : OnStarts fill.grid none (samples.map .ok))
    (hordinary : ∀ s ∈ samples, ¬ s.timestamp.IsLeap) :
    ∀ row ∈ rows, fill.grid.StartsAt row.timestamp := by
  cases h with
  | nil => exact fun row hrow => absurd hrow List.not_mem_nil
  | @first sample samples out hrest =>
    obtain ⟨hstarts, hascending, -⟩ := Grid.onStarts_map_ok.mp hs
    replace hstarts : ∀ s ∈ sample :: samples, fill.grid.StartsAt s.timestamp :=
      fun s hs => ⟨hstarts s hs, hordinary s hs⟩
    obtain ⟨last, hlast⟩ := Option.ne_none_iff_exists'.mp
      (mt List.getLast?_eq_none_iff.mp (List.cons_ne_nil sample samples))
    have hend : ((sample :: samples).map (·.timestamp)).getLast? = some last.timestamp := by
      rw [List.getLast?_map, hlast, Option.map_some]
    have hwalk := hrest.walk hl hstarts hascending hend
    have hmem := hwalk.starts hl (hstarts sample List.mem_cons_self)
      (hstarts last (List.mem_of_getLast? hlast))
    exact fun row hrow => hmem _ (List.mem_map_of_mem hrow)

-- ---------------------------------------------------------------------------
-- The second filling
-- ---------------------------------------------------------------------------

theorem fillFrom_done (h : ¬ boundary < after.timestamp) :
    fillFrom fill type stage before after continued budget boundary = continued := by
  cases budget <;> simp only [fillFrom, if_neg h]

theorem answers_run_adjoining
    (h : ((before :: rows).map (·.timestamp)).IsChain fill.grid.Adjoins)
    (hp : pull.answers = rows.map .ok) :
    (run fill type stage (some before) pull).answers = rows.map .ok := by
  induction rows generalizing before pull with
  | nil =>
    cases pull with
    | stop => rfl
    | item answer next => simp at hp
  | cons row rows ih =>
    cases pull with
    | stop => simp at hp
    | item answer next =>
      obtain ⟨rfl, hrest⟩ := List.cons.inj hp
      obtain ⟨⟨hlt, boundary, hnext, hle⟩, hchain⟩ := List.isChain_cons_cons.mp h
      simp only [run, hnext, if_neg (Std.not_le.mpr (Std.lt_of_lt_of_le hlt hle)),
        fillFrom_done (Std.not_lt.mpr hle), Pull.answers_item, ih hchain hrest, List.map_cons]

theorem answers_run_self (h : (rows.map (·.timestamp)).IsChain fill.grid.Adjoins)
    (hp : pull.answers = rows.map .ok) :
    (run fill type stage none pull).answers = rows.map .ok := by
  cases pull with
  | stop => exact hp
  | item answer next =>
    obtain ⟨row, rest, rfl, rfl, hrest⟩ := List.map_eq_cons_iff.mp hp.symm
    simp only [run, Pull.answers_item, answers_run_adjoining h hrest.symm, List.map_cons]

end GapFill

-- ---------------------------------------------------------------------------
-- Rowsets
-- ---------------------------------------------------------------------------

namespace Rowset

variable {grid : Grid} {field : Field} {inner : Stream (Sample Row)} {rows : List (Sample Row)}

theorem align_eq_self (grid : Grid) (hnumeric : field.dataType.isNumeric = true)
    (hrequired : field.required = true) (h : OnStarts grid none inner.answers) :
    align grid ⟨[field], inner.guard⟩ = .ok ⟨[field], inner.guard⟩ := by
  rw [align_eq_ok grid rfl hnumeric hrequired]
  congr 2
  refine Stream.guard_congr ?_
  rw [Stream.answers_transduce, Stream.answers_guard,
    Alignment.untilError_transduced h rfl fun _ => rfl]

theorem align_self_of_align_eq_self (hf : grid.Floors) (hnumeric : field.dataType.isNumeric = true)
    (hrequired : field.required = true) (ho : InOrder rows)
    (hanswers : inner.guard.answers = rows.map .ok)
    (h : align grid ⟨[field], inner.guard⟩ = .ok ⟨[field], inner.guard⟩) :
    ∀ row ∈ rows, grid.align row.timestamp = some row.timestamp := by
  rw [align_eq_ok grid rfl hnumeric hrequired] at h
  have hrows := congrArg Stream.answers (Rowset.mk.inj (Except.ok.inj h)).2
  rw [hanswers, Stream.answers_guard, Stream.answers_transduce, hanswers,
    untilError_eq_map_ok] at hrows
  obtain ⟨-, hmem⟩ := Alignment.transduced_timestamps hf ho hrows
  intro row hrow
  obtain ⟨_, -, halign⟩ := (hmem row.timestamp).mp (List.mem_map_of_mem hrow)
  exact hf.align_start halign

theorem gapFill_eq_self (fill : GapFill) (hnumeric : field.dataType.isNumeric = true)
    (h : (rows.map (·.timestamp)).IsChain fill.grid.Adjoins)
    (hanswers : inner.guard.answers = rows.map .ok) :
    gapFill fill ⟨[field], inner.guard⟩ = .ok ⟨[field], inner.guard⟩ := by
  rw [gapFill_eq_ok fill rfl hnumeric]
  congr 2
  refine Stream.guard_congr ?_
  calc untilError (GapFill.run fill field.dataType ("gap_fill(" ++ field.urn ++ ")") none
        (inner.guard false)).answers
    _ = untilError (rows.map .ok) := congrArg untilError (GapFill.answers_run_self h hanswers)
    _ = rows.map .ok := untilError_map_ok
    _ = untilError inner.answers := by rw [← hanswers, Stream.answers_guard]

/-- An aligned series in order is left as it is by another alignment, and a filled
one by another filling. Another alignment leaves a filled one as it is if all its
rows are on starts of buckets, as they are if none is in a leap second, and only
then. All are the very streams, errors and cancellations included. -/
theorem resampled_unchanged {spec : PeriodSpec} {period : Period}
    (hspec : spec.build = .ok period) {rowset : Rowset} {field : Field}
    (hfields : rowset.fields = [field]) (hnumeric : field.dataType.isNumeric = true)
    (hrequired : field.required = true)
    (ho : InOrder (rowset.rows.answers.filterMap Except.toOption)) :
    ∃ aligned, rowset.align period.grid = .ok aligned ∧
      aligned.align period.grid = .ok aligned ∧
      ∀ mode limit, ∃ filled, aligned.gapFill ⟨period.grid, mode, limit⟩ = .ok filled ∧
        ∀ out : List (Sample Row), filled.rows.answers = out.map .ok →
          (∀ mode' limit', filled.gapFill ⟨period.grid, mode', limit'⟩ = .ok filled) ∧
          (filled.align period.grid = .ok filled ↔
            ∀ row ∈ out, period.grid.align row.timestamp = some row.timestamp) ∧
          ((∀ row ∈ out, ¬ row.timestamp.IsLeap) → filled.align period.grid = .ok filled) := by
  have hl := PeriodSpec.lawful hspec
  have haligned : OnStarts period.grid none (rowset.rows.transduce (Alignment.step period.grid
      field.dataType ("align(" ++ field.urn ++ ")")) .initial).answers := by
    rw [Stream.answers_transduce]
    exact Alignment.onStarts_transduced period.floors [] ho (by simp)
  refine ⟨_, align_eq_ok period.grid hfields hnumeric hrequired,
    align_eq_self period.grid hnumeric hrequired haligned, fun mode limit =>
    ⟨_, gapFill_eq_ok _ rfl hnumeric, fun out hout => ?_⟩⟩
  have hrun := hout
  rw [Stream.answers_guard, untilError_eq_map_ok] at hrun
  obtain ⟨samples, hsamples, hfilled⟩ := GapFill.run_answers hrun
  rw [← Stream.answers, Stream.answers_guard, untilError_eq_map_ok] at hsamples
  have hstarts := hsamples ▸ haligned
  obtain ⟨-, hascending, -⟩ := Grid.onStarts_map_ok.mp hstarts
  have halign (hrows : ∀ row ∈ out, period.grid.align row.timestamp = some row.timestamp) :=
    align_eq_self period.grid hnumeric hrequired (hrun ▸ (hfilled.onStarts_iff hstarts).mpr hrows)
  have horder : InOrder out :=
    (List.pairwise_map.mp (hfilled.ascending hascending)).imp Std.le_of_lt
  exact ⟨fun mode' limit' => gapFill_eq_self _ hnumeric (hfilled.adjoin hascending) hout,
    ⟨align_self_of_align_eq_self hl.toFloors hnumeric hrequired horder hout, halign⟩,
    fun hordinary => halign fun row hrow => (hfilled.startsAt hl hstarts
      (fun s hs => hordinary s (hfilled.sublist.mem hs)) row hrow).align_self⟩

def sparseHours : List (Sample Row) :=
  [⟨.ofNanos 2700000000000, [.integer 1]⟩,
    ⟨.ofNanos 10800000000000, [.integer 7]⟩]

def denseHours : List (Sample Row) :=
  [⟨.epoch, [.integer 1]⟩, ⟨.ofNanos 3600000000000, [.integer 1]⟩,
    ⟨.ofNanos 7200000000000, [.integer 1]⟩,
    ⟨.ofNanos 10800000000000, [.integer 7]⟩]

theorem sparseHours_unchanged :
    ∃ period aligned filled, (PeriodSpec.fixed 3600 0).build = .ok period ∧
      InOrder sparseHours ∧
      Rowset.align period.grid ⟨[.plain "m" .integer true], .ofAnswers (sparseHours.map .ok)⟩ =
        .ok aligned ∧
      aligned.align period.grid = .ok aligned ∧
      aligned.gapFill ⟨period.grid, .forwardFill, 2⟩ = .ok filled ∧
      filled.rows.answers = denseHours.map .ok ∧
      filled.align period.grid = .ok filled ∧
      filled.gapFill ⟨period.grid, .linear, 0⟩ = .ok filled := by
  let period : Period := .fixed ⟨3600000, .utc, by decide⟩
  have hspec : (PeriodSpec.fixed 3600 0).build = .ok period := rfl
  have horder : InOrder sparseHours := by
    simp only [InOrder, sparseHours]
    decide
  obtain ⟨aligned, haligned, hagain, hfill⟩ := @resampled_unchanged _ period hspec
    ⟨[.plain "m" .integer true], .ofAnswers (sparseHours.map .ok)⟩ _ rfl rfl rfl horder
  obtain ⟨filled, hfilled, hunchanged⟩ := hfill .forwardFill 2
  have hout : filled.rows.answers = denseHours.map .ok := by
    have haligned' := (align_eq_ok period.grid rfl rfl rfl).symm.trans haligned
    cases haligned'
    have hfilled' := (gapFill_eq_ok _ rfl rfl).symm.trans hfilled
    cases hfilled'
    rfl
  obtain ⟨hrefill, -, halign⟩ := hunchanged _ hout
  exact ⟨period, aligned, filled, hspec, horder, haligned, hagain, hfilled, hout,
    halign (by decide), hrefill .linear 0⟩

set_option maxRecDepth 2000 in
/-- Behind a bucket that starts in a leap second, another alignment moves what was
filled in. -/
theorem acrossNewYear_changed :
    ∃ period aligned filled again, (PeriodSpec.fixed 60 0).build = .ok period ∧
      InOrder acrossNewYear ∧
      Rowset.align period.grid ⟨[.plain "m" .integer true], .ofAnswers (acrossNewYear.map .ok)⟩ =
        .ok aligned ∧
      aligned.gapFill ⟨period.grid, .forwardFill, 5⟩ = .ok filled ∧
      filled.align period.grid = .ok again ∧
      filled.rows.answers = [⟨yearEnd 0, [.integer 1]⟩, ⟨newYear 59, [.integer 1]⟩,
        ⟨newYear 119, [.integer 1]⟩, ⟨newYear 179, [.integer 1]⟩,
        ⟨newYear 180, [.integer 7]⟩].map .ok ∧
      again.rows.answers = [⟨yearEnd 0, [.integer 1]⟩, ⟨newYear 0, [.integer 1]⟩,
        ⟨newYear 60, [.integer 1]⟩, ⟨newYear 120, [.integer 1]⟩,
        ⟨newYear 180, [.integer 7]⟩].map .ok := by
  have horder : InOrder acrossNewYear := by
    simp only [InOrder, acrossNewYear]
    decide
  exact ⟨.fixed ⟨60000, .utc, by decide⟩, _, _, _, rfl, horder, align_eq_ok _ rfl rfl rfl,
    gapFill_eq_ok _ rfl rfl, align_eq_ok _ rfl rfl rfl, rfl, rfl⟩

end Rowset

end SeriesQuery
