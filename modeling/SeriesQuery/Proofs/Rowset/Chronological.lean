import SeriesQuery.Proofs.Merge.Chronological
import SeriesQuery.Proofs.Resample.GapFill
import SeriesQuery.Proofs.Rowset.Faultless

/-!
# Chronological rowsets

Each stage gives chronological rows for chronological ones. Most of them answer
at the timestamps that they read. An alignment answers the starts of buckets,
which do not go back as the samples do not; a filled gap lies between its
neighbours whatever the grid does. For the same reasons the values that both of
them ask for lie between the samples around them. A join has the order of its
merge.
-/

namespace SeriesQuery

/-- Whatever its puller does, the rows do not go back, and no error says that
some did. -/
def Rowset.Chronological (rowset : Rowset) : Prop := rowset.rows.Chronological

-- ---------------------------------------------------------------------------
-- Chosen and computed rows
-- ---------------------------------------------------------------------------

theorem Stream.Chronological.transduce_at
    {step : σ → Sample α → σ × Option (Except QueryError (Sample β))} {start : σ}
    {stream : Stream (Sample α)} (h : stream.Chronological)
    (hstep : ∀ state s answer, .ok s ∈ stream.answers → (step state s).2 = some answer →
      Outcome answer (fun a => a.timestamp = s.timestamp) fun e => ¬ e.IsOrderFault) :
    (Stream.guard (stream.transduce step start)).Chronological := by
  refine Stream.chronological_guard ?_
  rw [Stream.answers_transduce]
  exact h.answers.transduced_at (fun _ hs => hs) hstep

namespace Rowset

variable {rowset out : Rowset}

theorem Chronological.filterMap {fields : List Field}
    {f : Sample Row → Option (Except QueryError (Sample Row))}
    (h : rowset.Chronological)
    (hf : ∀ s answer, .ok s ∈ rowset.rows.answers → f s = some answer →
      Outcome answer (fun a => a.timestamp = s.timestamp) fun e => ¬ e.IsOrderFault) :
    Rowset.Chronological ⟨fields, Stream.guard (rowset.rows.filterMap f)⟩ :=
  Stream.Chronological.transduce_at h fun _ => hf

theorem Chronological.window (h : rowset.Chronological) :
    (rowset.window range).Chronological := by
  refine h.filterMap fun s answer _ ha => ?_
  split at ha
  · cases ha
    exact rfl
  · cases ha

theorem Chronological.project (h : rowset.Chronological) (hc : rowset.Conforming)
    (ho : rowset.project columns = .ok out) : out.Chronological := by
  simp only [Rowset.project, bind_eq_ok, QueryError.compiling_eq_ok, pure_eq_ok] at ho
  obtain ⟨compiled, hcompiled, _, -, rfl⟩ := ho
  refine h.filterMap fun s answer hs ha => ?_
  cases ha
  refine Faultless.evaluating ?_ fun a ha => ?_
  · refine (Faultless.mapM fun column hcolumn => ?_).bind fun _ => faultless_pure
    have hsound := Column.compileAll_sound hcompiled column hcolumn
    exact (hsound s.value (Stream.Always.outcome hc _ hs)).faultless.bind fun _ =>
      Field.faultless_check.within.bind fun _ => faultless_pure
  · obtain ⟨_, -, ha⟩ := bind_eq_ok.mp ha
    rw [← pure_eq_ok.mp ha]

theorem Chronological.keepWhere (h : rowset.Chronological) (hc : rowset.Conforming)
    (ho : rowset.keepWhere predicate = .ok out) : out.Chronological := by
  simp only [Rowset.keepWhere, bind_eq_ok, QueryError.compiling_eq_ok, CompileError.within_eq_ok,
    throw_unless_eq_ok, pure_eq_ok] at ho
  obtain ⟨compiled, hcompiled, -, rfl⟩ := ho
  refine h.filterMap fun s answer hs ha => ?_
  have heval :=
    (Expr.compile_sound hcompiled s.value (Stream.Always.outcome hc _ hs)).faultless
  split at ha
  · split at ha
    · cases ha
      exact rfl
    · cases ha
  · next e he =>
    rw [he] at heval
    cases ha
    exact heval

theorem Chronological.override (h : rowset.Chronological)
    (ho : rowset.override target change = .ok out) : out.Chronological := by
  simp only [Rowset.override, bind_eq_ok, pure_eq_ok] at ho
  obtain ⟨index, -, _, -, rfl⟩ := ho
  exact h

end Rowset

-- ---------------------------------------------------------------------------
-- Derivations
-- ---------------------------------------------------------------------------

namespace Rowset

variable {rowset out : Rowset}

theorem Chronological.derive {fields : List Field} {derivation : Derivation}
    (h : rowset.Chronological)
    (hd : derivation.AlwaysFaultless) :
    Rowset.Chronological ⟨fields, rowset.derive derivation stage⟩ := by
  refine Stream.Chronological.transduce_at h fun kept s answer _ ha => ?_
  have hfaultless := hd kept s.scalar
  unfold Derivation.step at ha
  split at ha
  · cases ha
    exact rfl
  · cases ha
  · next e he =>
    rw [he] at hfaultless
    cases ha
    exact hfaultless

theorem Chronological.delta (h : rowset.Chronological) (ho : rowset.delta = .ok out) :
    out.Chronological := by
  obtain ⟨field, -, rfl⟩ := delta_eq_ok ho
  exact h.derive Derivation.faultless_delta

theorem Chronological.rate (h : rowset.Chronological) (ho : rowset.rate = .ok out) :
    out.Chronological := by
  obtain ⟨field, -, rfl⟩ := rate_eq_ok ho
  exact h.derive Derivation.faultless_rate

theorem Chronological.counterDelta (h : rowset.Chronological)
    (ho : rowset.counterDelta maximum = .ok out) : out.Chronological := by
  obtain ⟨field, coerced, -, -, rfl⟩ := counterDelta_eq_ok ho
  exact h.derive Derivation.faultless_counterDelta

end Rowset

-- ---------------------------------------------------------------------------
-- Alignment
-- ---------------------------------------------------------------------------

namespace Alignment

/-- What an alignment knows goes with the last timestamp that it has read, and
its bucket with the last one that it has told. -/
inductive KeepsUp (grid : Grid) : Alignment → Option Instant → Option Instant → Prop where
  | initial : KeepsUp grid .initial last none
  | after {sample : Sample Row} : grid.align sample.timestamp = some start → t ∈ last →
      sample.timestamp ≤ t → (∀ t ∈ told, t ≤ start) →
      KeepsUp grid ⟨some start, some sample⟩ last told

variable {grid : Grid} {alignment : Alignment} {last told : Option Instant}

theorem faultless_bucketSample (hl : grid.Lawful) (h : KeepsUp grid alignment last told)
    (hread : ∀ t ∈ last, t ≤ current.timestamp) (hs : grid.align current.timestamp = some start)
    (hne : alignment.bucket ≠ some start) :
    Faultless (bucketSample type stage alignment.previous start current) := by
  cases h with
  | initial => trivial
  | @after _ _ t _ sample hbefore ht hle _ =>
    have hmono := hl.mono (Std.le_trans hle (hread t ht)) hbefore hs
    have hbetween : ¬ start ≤ sample.timestamp := by
      intro hback
      have hsame := hl.mono hback (hl.align_start hs) hbefore
      exact hne (congrArg some (Std.le_antisymm hmono hsame))
    simp only [bucketSample]
    split
    · trivial
    · exact (faultless_interpolate (Std.le_of_lt (Std.not_le.mp hbetween))
        (hl.start_le hs)).within.map

theorem step_proceeds (hl : grid.Lawful) (h : KeepsUp grid alignment last told)
    (hread : ∀ t ∈ last, t ≤ current.timestamp) :
    Proceeds (KeepsUp grid) (some current.timestamp) told
      (step grid type stage alignment current) := by
  cases hs : grid.align current.timestamp with
  | none =>
    simp only [step, hs]
    refine ⟨id, ?_⟩
    cases h with
    | initial => exact .initial
    | after hbefore ht hle htold => exact .after hbefore rfl (Std.le_trans hle (hread _ ht)) htold
  | some start =>
    have htold : ∀ t ∈ told, t ≤ start := by
      cases h with
      | initial => exact fun t ht => by cases ht
      | after hbefore ht hle htold =>
        have hmono := hl.mono (Std.le_trans hle (hread _ ht)) hbefore hs
        exact fun t ht => Std.le_trans (htold t ht) hmono
    have hknows : ∀ told : Option Instant, (∀ t ∈ told, t ≤ start) →
        KeepsUp grid ⟨some start, some current⟩ (some current.timestamp) told :=
      fun _ => .after hs rfl (Std.le_refl _)
    by_cases hsame : alignment.bucket = some start
    · simp only [step, hs, hsame, if_true]
      exact hknows told htold
    · have hfaultless : Faultless (bucketSample type stage alignment.previous start current) :=
        faultless_bucketSample hl h hread hs hsame
      simp only [step, hs, hsame, if_false]
      cases hvalue : bucketSample type stage alignment.previous start current with
      | error e =>
        rw [hvalue] at hfaultless
        exact ⟨hfaultless, hknows told htold⟩
      | ok out =>
        have hstart := bucketSample_timestamp hvalue
        refine ⟨hstart ▸ htold, hknows _ fun t ht => ?_⟩
        exact Std.le_of_eq ((Option.some.inj ht).symm.trans hstart)

end Alignment

theorem Rowset.Chronological.alignSingle {rowset : Rowset} {single : SingleRowset}
    (hl : grid.Lawful) (h : rowset.Chronological) (ho : rowset.alignSingle grid = .ok single) :
    single.toRowset.Chronological := by
  obtain ⟨-, -, hrows⟩ := alignSingle_eq_ok ho
  show single.rows.Chronological
  rw [hrows]
  refine Stream.chronological_guard ?_
  rw [Stream.answers_transduce]
  exact h.answers.transduced (Alignment.KeepsUp grid) (Q := fun _ => True) (fun _ _ => trivial)
    (fun _ _ _ _ hinv _ hread => Alignment.step_proceeds hl hinv hread) .initial

theorem Rowset.Chronological.align {rowset out : Rowset} (hl : grid.Lawful)
    (h : rowset.Chronological) (ho : rowset.align grid = .ok out) : out.Chronological := by
  obtain ⟨single, hsingle, rfl⟩ := map_eq_ok.mp ho
  exact h.alignSingle hl hsingle

-- ---------------------------------------------------------------------------
-- Filled gaps
-- ---------------------------------------------------------------------------

namespace GapFill

variable {mode : FillMode} {before after : Sample Row} {last : Option Instant}

theorem chronological_failed {error : EvalError} (h : ¬ error.IsOrderFault) :
    Chronological last (failed stage error).answers := ⟨h, trivial⟩

theorem fillFrom_chronological {fill : GapFill} {continued : Pull (Sample Row)}
    (hbefore : before.timestamp ≤ boundary) (hboundary : ∀ t ∈ last, t ≤ boundary)
    (hafter : ∀ t ∈ last, t ≤ after.timestamp)
    (hc : ∀ last : Option Instant, (∀ t ∈ last, t ≤ after.timestamp) →
      Chronological last continued.answers) :
    Chronological last
      (fillFrom fill type stage before after continued budget boundary).answers := by
  induction budget generalizing boundary last with
  | zero =>
    unfold fillFrom
    split
    · exact chronological_failed id
    · exact hc last hafter
  | succ budget ih =>
    unfold fillFrom
    split
    · next hinside =>
      have hfaultless : Faultless (fillSample fill.mode type before after boundary) :=
        faultless_fillSample hbefore (Std.le_of_lt hinside)
      split
      · next e he =>
        rw [he] at hfaultless
        exact chronological_failed hfaultless
      · next sample hsample =>
        split
        · exact ⟨id, trivial⟩
        · split
          · exact chronological_failed id
          · next hforward =>
            have htimestamp := fillSample_timestamp hsample
            rw [Pull.answers_item, Chronological, htimestamp]
            refine ⟨hboundary, ih ?_ ?_ ?_⟩
            · grind
            · grind
            · grind
    · exact hc last hafter

theorem run_chronological {fill : GapFill} {pull : Pull (Sample Row)}
    (h : Chronological last pull.answers)
    (hb : ∀ before, before? = some before → last = some before.timestamp) :
    Chronological last (fill.run type stage before? pull).answers := by
  induction pull generalizing before? last with
  | stop => trivial
  | item answer next ih =>
    cases answer with
    | error e => exact ⟨h.1, trivial⟩
    | ok sample =>
      have hcontinued : ∀ last : Option Instant, (∀ t ∈ last, t ≤ sample.timestamp) →
          Chronological last (Pull.item (.ok sample) fun cancelled =>
            fill.run type stage (some sample) (next cancelled)).answers :=
        fun last hlast => ⟨hlast, ih false h.2 fun _ hs => by cases hs; rfl⟩
      unfold run
      split
      · exact hcontinued last h.1
      · next before =>
        split
        · exact ⟨id, trivial⟩
        · split
          · exact chronological_failed id
          · next hforward =>
            obtain rfl := hb before rfl
            refine fillFrom_chronological ?_ ?_ h.1 hcontinued
            · grind
            · grind

end GapFill

theorem Rowset.Chronological.gapFill {rowset out : Rowset} (h : rowset.Chronological)
    (ho : rowset.gapFill fill = .ok out) : out.Chronological := by
  simp only [Rowset.gapFill, bind_eq_ok, throw_unless_eq_ok, pure_eq_ok] at ho
  obtain ⟨field, -, -, rfl⟩ := ho
  show (Stream.guard fun cancelled => fill.run _ _ none (rowset.rows cancelled)).Chronological
  apply Stream.chronological_guard
  exact GapFill.run_chronological h.answers (by simp)

-- ---------------------------------------------------------------------------
-- Joins and reductions
-- ---------------------------------------------------------------------------

theorem joinStreams_chronological {streams : List (Stream (Sample α))}
    {combine : Slots α → Except EvalError β} (h : ∀ stream ∈ streams, stream.Chronological)
    (hc : ∀ slots, Faultless (combine slots)) :
    (joinStreams kind streams combine).Chronological := by
  refine Stream.chronological_guard ?_
  rw [Stream.filterMap, Stream.answers_transduce]
  refine (Merge.chronological_ofStreams h).transduced_at (Q := fun _ => True) (fun _ _ => trivial)
    fun _ row answer _ ha => ?_
  cases ha
  refine Faultless.evaluating ((hc row.value).within.bind fun _ => faultless_pure) fun a ha => ?_
  obtain ⟨_, -, ha⟩ := bind_eq_ok.mp ha
  rw [← pure_eq_ok.mp ha]

namespace Rowset

theorem Chronological.join {inputs : List Rowset} {out : Rowset}
    (h : ∀ input ∈ inputs, input.Chronological) (ho : Rowset.join kind inputs = .ok out) :
    out.Chronological := by
  obtain ⟨-, rfl⟩ := join_eq_ok.mp ho
  exact joinStreams_chronological (List.forall_mem_map.mpr h) fun _ => faultless_flatten

end Rowset

namespace Rowset

theorem reduceAligned_chronological {singles : List SingleRowset} {out : Rowset}
    (h : ∀ single ∈ singles, single.toRowset.Chronological)
    (ho : reduceAligned reduction template singles = .ok out) : out.Chronological := by
  cases singles with
  | nil => cases ho
  | cons first rest =>
    simp only [reduceAligned, bind_eq_ok] at ho
    obtain ⟨_, -, ho⟩ := ho
    split at ho
    · obtain rfl := pure_eq_ok.mp ho
      exact h first List.mem_cons_self
    · obtain rfl := pure_eq_ok.mp ho
      exact joinStreams_chronological (List.forall_mem_map.mpr h) fun _ => Reduction.faultless_fold

theorem Chronological.reduce {inputs : List (Except QueryError Rowset)} {out : Rowset}
    (hl : grid.Lawful) (h : ∀ rowset, .ok rowset ∈ inputs → rowset.Chronological)
    (ho : Rowset.reduce reduction grid template fallback inputs = .ok out) :
    out.Chronological := by
  rcases reduce_cases ho with hempty | ⟨singles, hsingles, ho⟩
  · rw [Chronological, hempty]
    exact Stream.chronological_empty
  · refine reduceAligned_chronological (fun single hs => ?_) ho
    obtain ⟨input, hinput, rowset, rfl, hsingle⟩ := exists_of_forall₂ hsingles.flip hs
    exact (h rowset hinput).alignSingle hl hsingle

end Rowset

end SeriesQuery
