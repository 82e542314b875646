import SeriesQuery.Proofs.Rowset.Series
import SeriesQuery.Proofs.Stream.Chronological
import SeriesQuery.Proofs.Time.Grid
import SeriesQuery.Time.PeriodSpec

/-!
# An aligned series has one answer for each bucket

An alignment goes through a series once and knows no more of it than the last
sample. What it answers is said here of the series as a whole: for each bucket
that has samples, in order, an answer that depends on the samples of the bucket
and of the one before it. `BucketAnswer` is the rule for one bucket,
`BucketAnswers` that for a list of them.
-/

namespace SeriesQuery

namespace Grid

def samplesIn (grid : Grid) (items : List (Sample Row)) (start : Instant) : List (Sample Row) :=
  items.filter fun sample => grid.align sample.timestamp = some start

/-- What is answered for the bucket at `start`, where `before` is the bucket
with samples that precedes it. -/
inductive BucketAnswer (grid : Grid) (field : Field) (items : List (Sample Row)) :
    Option Instant → Instant → Except QueryError (Sample Row) → Prop where
  /-- The first bucket takes the value of its first sample. -/
  | first : (grid.samplesIn items start).head? = some current →
      BucketAnswer grid field items none start (.ok ⟨start, [current.value.first]⟩)
  /-- A first sample that lies on the start is kept as it is. -/
  | onStart : (grid.samplesIn items start).head? = some current → current.timestamp = start →
      BucketAnswer grid field items (some before) start (.ok current)
  /-- Any other bucket takes the value on the line from the last sample of the
  bucket before it to its own first one. -/
  | between : (grid.samplesIn items start).head? = some current → current.timestamp ≠ start →
      (grid.samplesIn items before).getLast? = some previous →
      interpolate field.dataType previous.scalar current.scalar start = .ok value →
      BucketAnswer grid field items (some before) start (.ok ⟨start, [value]⟩)
  | failed : (grid.samplesIn items start).head? = some current → current.timestamp ≠ start →
      (grid.samplesIn items before).getLast? = some previous →
      interpolate field.dataType previous.scalar current.scalar start = .error e →
      BucketAnswer grid field items (some before) start
        (.error (.eval (.context ("align(" ++ field.urn ++ ")") e)))

inductive BucketAnswers (grid : Grid) (field : Field) (items : List (Sample Row)) :
    Option Instant → List Instant → List (Except QueryError (Sample Row)) → Prop where
  | nil : BucketAnswers grid field items before [] []
  | cons : BucketAnswer grid field items before start answer →
      BucketAnswers grid field items (some start) starts answers →
      BucketAnswers grid field items before (start :: starts) (answer :: answers)

end Grid

open Grid (BucketAnswer BucketAnswers)

namespace Alignment

variable {grid : Grid} {field : Field} {seen rest : List (Sample Row)} {current : Sample Row}

def after (grid : Grid) (seen : List (Sample Row)) : Alignment :=
  ⟨seen.getLast?.bind fun sample => grid.align sample.timestamp, seen.getLast?⟩

theorem after_nil : after grid [] = initial := rfl

theorem after_concat (h : grid.align current.timestamp = some start) :
    after grid (seen ++ [current]) = ⟨some start, some current⟩ := by
  simp [after, h]

theorem bucket_after_nil : (after grid []).bucket = none := rfl

theorem step_after (h : grid.align current.timestamp = some start) :
    step grid type stage (after grid seen) current =
      (after grid (seen ++ [current]),
        if (after grid seen).bucket = some start then none
        else some (QueryError.evaluating
          (bucketSample type stage seen.getLast? start current))) := by
  rw [after_concat h]
  simp only [step, h]
  split
  · rfl
  · rfl

theorem step_initial (hb : grid.align current.timestamp = some b) :
    step grid type stage initial current =
      (⟨some b, some current⟩, some (.ok ⟨b, [current.value.first]⟩)) := by
  simp [step, hb, initial, bucketSample, QueryError.evaluating]

-- ---------------------------------------------------------------------------
-- Samples of one bucket
-- ---------------------------------------------------------------------------

theorem bucketSample_timestamp {before? : Option (Sample Row)}
    (h : bucketSample type stage before? start current = .ok out) : out.timestamp = start := by
  unfold bucketSample at h
  split at h
  · cases h
    rfl
  · split at h
    · next hstart =>
      cases h
      exact hstart
    · obtain ⟨_, -, rfl⟩ := map_eq_ok.mp h
      rfl

theorem bucket_lt (hl : grid.Lawful) (ho : InOrder (seen ++ current :: rest))
    (hs : grid.align current.timestamp = some start) (hb : (after grid seen).bucket = some before)
    (hne : (after grid seen).bucket ≠ some start) : before < start := by
  obtain ⟨previous, hprevious, halign⟩ := Option.bind_eq_some_iff.mp hb
  have hle : previous.timestamp ≤ current.timestamp :=
    (List.pairwise_append.mp ho).2.2 _ (List.mem_of_getLast? hprevious) _ List.mem_cons_self
  have hmono := hl.mono hle halign hs
  have hneq : before ≠ start := fun heq => hne (heq ▸ hb)
  grind

theorem head?_samplesIn (hl : grid.Lawful) (ho : InOrder (seen ++ current :: rest))
    (hs : grid.align current.timestamp = some start)
    (hc : ∀ s ∈ seen, grid.align s.timestamp ≠ none)
    (hne : (after grid seen).bucket ≠ some start) :
    (grid.samplesIn (seen ++ current :: rest) start).head? = some current := by
  have hseen : seen.filter (fun s => grid.align s.timestamp = some start) = [] := by
    refine List.filter_eq_nil_iff.mpr fun s hmem => ?_
    obtain ⟨last, hlast⟩ := Option.ne_none_iff_exists'.mp
      (fun hnone => List.ne_nil_of_mem hmem (List.getLast?_eq_none_iff.mp hnone))
    obtain ⟨init, rfl⟩ := List.getLast?_eq_some_iff.mp hlast
    obtain ⟨before, hbefore⟩ := Option.ne_none_iff_exists'.mp
      (hc last (List.mem_append_right _ List.mem_cons_self))
    have hb : (after grid (init ++ [last])).bucket = some before := by
      rw [after_concat hbefore]
    have hlt := bucket_lt hl ho hs hb hne
    have hle : s.timestamp ≤ last.timestamp := by
      rcases List.mem_append.mp hmem with hinit | hlast
      · exact (List.pairwise_append.mp (List.pairwise_append.mp ho).1).2.2 _ hinit _
          List.mem_cons_self
      · rw [List.mem_singleton.mp hlast]
        exact Std.le_refl _
    intro halign
    have hmono := hl.mono hle (of_decide_eq_true halign) hbefore
    grind
  rw [Grid.samplesIn, List.filter_append, hseen, List.nil_append,
    List.filter_cons_of_pos (by simpa using hs), List.head?_cons]

theorem getLast?_samplesIn (hl : grid.Lawful) (ho : InOrder (seen ++ current :: rest))
    (hs : grid.align current.timestamp = some start)
    (hb : (after grid seen).bucket = some before) (hne : (after grid seen).bucket ≠ some start) :
    (grid.samplesIn (seen ++ current :: rest) before).getLast? = seen.getLast? := by
  have hlt := bucket_lt hl ho hs hb hne
  obtain ⟨previous, hprevious, halign⟩ := Option.bind_eq_some_iff.mp hb
  obtain ⟨init, rfl⟩ := List.getLast?_eq_some_iff.mp hprevious
  have hrest : (current :: rest).filter (fun s => grid.align s.timestamp = some before) = [] := by
    refine List.filter_eq_nil_iff.mpr fun s hmem hs' => ?_
    have hle := InOrder.head_le (List.pairwise_append.mp ho).2.1 s hmem
    have hmono := hl.mono hle hs (of_decide_eq_true hs')
    grind
  rw [Grid.samplesIn, List.filter_append, hrest, List.append_nil, List.filter_append,
    List.filter_cons_of_pos (by simpa using halign), List.filter_nil, List.getLast?_concat,
    List.getLast?_concat]

theorem bucketSample_answer (hl : grid.Lawful) (ho : InOrder (seen ++ current :: rest))
    (hs : grid.align current.timestamp = some start)
    (hc : ∀ s ∈ seen, grid.align s.timestamp ≠ none)
    (hne : (after grid seen).bucket ≠ some start) :
    BucketAnswer grid field (seen ++ current :: rest) (after grid seen).bucket start
      (QueryError.evaluating
        (bucketSample field.dataType ("align(" ++ field.urn ++ ")") seen.getLast? start
          current)) := by
  have hhead := head?_samplesIn hl ho hs hc hne
  cases hlast : seen.getLast? with
  | none =>
    have hnone : (after grid seen).bucket = none := by simp [after, hlast]
    rw [hnone]
    exact .first hhead
  | some previous =>
    obtain ⟨before, hbefore⟩ := Option.ne_none_iff_exists'.mp
      (hc previous (List.mem_of_getLast? hlast))
    have hb : (after grid seen).bucket = some before := by simp [after, hlast, hbefore]
    have hprevious := getLast?_samplesIn hl ho hs hb hne
    rw [hb]
    simp only [bucketSample]
    split
    · next hstart => exact .onStart hhead hstart
    · next hinside =>
      cases hvalue : interpolate field.dataType previous.scalar current.scalar start with
      | error e => exact .failed hhead hinside (hprevious.trans hlast) hvalue
      | ok value => exact .between hhead hinside (hprevious.trans hlast) hvalue

-- ---------------------------------------------------------------------------
-- Runs
-- ---------------------------------------------------------------------------

theorem transduced_answers (hl : grid.Lawful) (field : Field) (seen : List (Sample Row))
    (ho : InOrder (seen ++ rest))
    (hc : ∀ s ∈ seen ++ rest, grid.align s.timestamp ≠ none) :
    ∃ starts, BucketAnswers grid field (seen ++ rest) (after grid seen).bucket starts
        (transduced (step grid field.dataType ("align(" ++ field.urn ++ ")")) (after grid seen)
          (rest.map .ok)) ∧
      starts.Pairwise (· < ·) ∧
      ∀ b, b ∈ starts ↔ (∃ s ∈ rest, grid.align s.timestamp = some b) ∧
        (after grid seen).bucket ≠ some b := by
  induction rest generalizing seen with
  | nil => exact ⟨[], .nil, .nil, by simp⟩
  | cons current rest ih =>
    obtain ⟨start, hs⟩ := Option.ne_none_iff_exists'.mp
      (hc current (List.mem_append_right _ List.mem_cons_self))
    have hseen : ∀ s ∈ seen, grid.align s.timestamp ≠ none :=
      fun s h => hc s (List.mem_append_left _ h)
    have hassoc : seen ++ current :: rest = (seen ++ [current]) ++ rest := by simp
    obtain ⟨starts, hanswers, hascending, hmem⟩ :=
      ih (seen ++ [current]) (hassoc ▸ ho) (hassoc ▸ hc)
    have hafter : (after grid (seen ++ [current])).bucket = some start := by rw [after_concat hs]
    rw [← hassoc, hafter] at hanswers
    simp only [hafter] at hmem
    rw [List.map_cons, transduced, step_after hs]
    by_cases hsame : (after grid seen).bucket = some start
    · simp only [hsame, if_true]
      refine ⟨starts, hanswers, hascending, fun b => ?_⟩
      rw [hmem]
      grind
    · simp only [hsame, if_false]
      refine ⟨start :: starts, .cons (bucketSample_answer hl ho hs hseen hsame) hanswers,
        List.pairwise_cons.mpr ⟨fun b hb => ?_, hascending⟩, fun b => ?_⟩
      · obtain ⟨⟨s, hsmem, hsb⟩, hne⟩ := (hmem b).mp hb
        have hle :=
          InOrder.head_le (List.pairwise_append.mp ho).2.1 s (List.mem_cons_of_mem _ hsmem)
        have hmono := hl.mono hle hs hsb
        grind
      · have hlater : ∀ s ∈ rest, grid.align s.timestamp = some b →
            (after grid seen).bucket ≠ some b := by
          intro s hsmem hsb hbucket
          have hlt := bucket_lt hl ho hs hbucket hsame
          have hle := InOrder.head_le (List.pairwise_append.mp ho).2.1 s
            (List.mem_cons_of_mem _ hsmem)
          have hmono := hl.mono hle hs hsb
          grind
        rw [List.mem_cons, hmem]
        grind

end Alignment

namespace Grid

theorem BucketAnswers.timestamps {grid : Grid} {out : List (Sample Row)}
    (h : BucketAnswers grid field items before starts (out.map .ok)) :
    out.map (·.timestamp) = starts := by
  generalize hanswers : (out.map .ok : List (Except QueryError (Sample Row))) = answers at h
  induction h generalizing out with
  | nil => rw [List.map_eq_nil_iff.mp hanswers, List.map_nil]
  | cons hanswer _ ih =>
    obtain ⟨sample, out, rfl, rfl, hrest⟩ := List.map_eq_cons_iff.mp hanswers
    rw [List.map_cons, ih hrest]
    cases hanswer with
    | first => rfl
    | onStart _ hstart => rw [hstart]
    | between => rfl

end Grid

namespace Alignment

theorem align_ne_none {items out : List (Sample Row)}
    (h : transduced (step grid type stage) alignment (items.map .ok) = out.map .ok) :
    ∀ s ∈ items, grid.align s.timestamp ≠ none := by
  induction items generalizing alignment out with
  | nil => exact fun s hs => absurd hs List.not_mem_nil
  | cons current items ih =>
    rw [List.map_cons, transduced] at h
    cases hs : grid.align current.timestamp with
    | none =>
      simp only [step, hs] at h
      cases out <;> simp at h
    | some start =>
      refine List.forall_mem_cons.mpr ⟨by simp [hs], ?_⟩
      simp only [step, hs] at h
      split at h
      · exact ih h
      · cases out with
        | nil => cases h
        | cons answer out => exact ih (List.cons.inj h).2

end Alignment

-- ---------------------------------------------------------------------------
-- Starts
-- ---------------------------------------------------------------------------

namespace Grid

/-- Behind the bucket `before`, the answers up to the first error are rows on
starts of buckets, in ascending order. The very first one has one value. -/
inductive OnStarts (grid : Grid) :
    (before : Option Instant) → List (Except QueryError (Sample Row)) → Prop where
  | stop : OnStarts grid before []
  | failed : OnStarts grid before (.error e :: rest)
  | row : grid.align row.timestamp = some row.timestamp → (∀ b ∈ before, b < row.timestamp) →
      (before = none → row.value = [row.value.first]) →
      OnStarts grid (some row.timestamp) rest → OnStarts grid before (.ok row :: rest)

theorem onStarts_map_ok {grid : Grid} {rows : List (Sample Row)} :
    OnStarts grid before (rows.map .ok) ↔
    (∀ row ∈ rows, grid.align row.timestamp = some row.timestamp) ∧
      (rows.map (·.timestamp)).Pairwise (· < ·) ∧
      (∀ b ∈ before, ∀ row ∈ rows, b < row.timestamp) ∧
      (before = none → ∀ row ∈ rows.head?, row.value = [row.value.first]) := by
  induction rows generalizing before with
  | nil => simp [OnStarts.stop]
  | cons row rest ih =>
    simp only [List.map_cons, List.pairwise_cons, List.forall_mem_cons, List.forall_mem_map,
      List.head?_cons, Option.mem_some_iff, forall_eq']
    constructor
    · rintro (_ | _ | ⟨hs, hb, hsingle, hrest⟩)
      obtain ⟨hstarts, hascending, hlater, -⟩ := ih.mp hrest
      have hlater := hlater _ rfl
      exact ⟨⟨hs, hstarts⟩, ⟨hlater, hascending⟩,
        fun b hmem => ⟨hb b hmem, fun later hrow => Std.lt_trans (hb b hmem) (hlater later hrow)⟩,
        hsingle⟩
    · rintro ⟨⟨hs, hstarts⟩, ⟨hlater, hascending⟩, hb, hsingle⟩
      refine .row hs (fun b hmem => (hb b hmem).1) hsingle
        (ih.mpr ⟨hstarts, hascending, fun b hmem => ?_, fun hnone => absurd hnone (by simp)⟩)
      obtain rfl := Option.some.inj hmem
      exact hlater

end Grid

open Grid (OnStarts)

namespace Alignment

variable {grid : Grid} {type : DataType} {stage : String} {alignment : Alignment}
  {answers : List (Except QueryError (Sample Row))} {seen : List (Sample Row)}
  {previous current : Sample Row}

theorem lt_of_bucketSample (hf : grid.Floors) (ho : previous.timestamp ≤ current.timestamp)
    (hb : grid.align previous.timestamp = some before) (hne : before ≠ start)
    (h : bucketSample type stage (some previous) start current = .ok out) : before < start := by
  have hbefore := hf.start_le hb
  have hprevious : previous.timestamp ≤ start := by
    by_cases hstart : current.timestamp = start
    · exact hstart ▸ ho
    · simp only [bucketSample, if_neg hstart] at h
      obtain ⟨value, hvalue, -⟩ := map_eq_ok.mp h
      simp only [EvalError.within_eq_ok, interpolate, throw_unless_eq_ok] at hvalue
      exact Std.not_lt.mp fun hlt => hvalue.1 (.inl hlt)
  grind

theorem getLast?_of_bucket (hc : ∀ s ∈ seen, grid.align s.timestamp ≠ none)
    (hb : (after grid seen).bucket = none) : seen.getLast? = none := by
  cases hlast : seen.getLast? with
  | none => rfl
  | some last =>
    have hnone : grid.align last.timestamp = none := by simpa [after, hlast] using hb
    exact absurd hnone (hc last (List.mem_of_getLast? hlast))

theorem onStarts_transduced (hf : grid.Floors) (seen : List (Sample Row))
    (ho : InOrder (seen ++ answers.filterMap Except.toOption))
    (hc : ∀ s ∈ seen, grid.align s.timestamp ≠ none) :
    OnStarts grid (after grid seen).bucket
      (transduced (step grid type stage) (after grid seen) answers) := by
  induction answers generalizing seen with
  | nil => exact .stop
  | cons answer rest ih =>
    cases answer with
    | error e => exact .failed
    | ok current =>
      rw [filterMap_toOption_ok] at ho
      rw [transduced]
      cases hs : grid.align current.timestamp with
      | none =>
        simp only [step, hs]
        exact .failed
      | some start =>
        have hrest := ih (seen ++ [current]) (by simpa using ho)
          (List.forall_mem_append.mpr ⟨hc, by simp [hs]⟩)
        have hafter : (after grid (seen ++ [current])).bucket = some start := by
          rw [after_concat hs]
        rw [hafter] at hrest
        rw [step_after hs]
        by_cases hsame : (after grid seen).bucket = some start
        · simpa [hsame] using hrest
        · simp only [hsame, if_false]
          cases hvalue : bucketSample type stage seen.getLast? start current with
          | error e => exact .failed
          | ok row =>
            obtain rfl := bucketSample_timestamp hvalue
            refine .row (hf.align_start hs) (fun b hb => ?_) (fun hfirst => ?_) hrest
            · obtain ⟨previous, hprevious, halign⟩ := Option.bind_eq_some_iff.mp hb
              rw [hprevious] at hvalue
              have hle : previous.timestamp ≤ current.timestamp :=
                (List.pairwise_append.mp ho).2.2 _ (List.mem_of_getLast? hprevious) _
                  List.mem_cons_self
              exact lt_of_bucketSample hf hle halign (fun heq => hsame (heq ▸ hb)) hvalue
            · rw [getLast?_of_bucket hc hfirst] at hvalue
              have hsingle := congrArg Sample.value (Except.ok.inj hvalue)
              rw [← hsingle]
              rfl

theorem mem_transduced {items out : List (Sample Row)}
    (h : transduced (step grid type stage) alignment (items.map .ok) = out.map .ok) :
    (alignment.bucket = some b ∨ b ∈ out.map (·.timestamp)) ↔
      (alignment.bucket = some b ∨ ∃ s ∈ items, grid.align s.timestamp = some b) := by
  induction items generalizing alignment out with
  | nil =>
    obtain rfl : out = [] := by simpa [transduced] using h.symm
    simp
  | cons current items ih =>
    obtain ⟨start, hs⟩ := Option.ne_none_iff_exists'.mp
      (align_ne_none h current List.mem_cons_self)
    rw [List.map_cons, transduced] at h
    simp only [step, hs] at h
    by_cases hsame : alignment.bucket = some start
    · simp only [hsame, if_true] at h
      have hrest := ih h
      simp only [List.exists_mem_cons_iff, hs] at hrest ⊢
      grind
    · simp only [hsame, if_false] at h
      cases hsample : bucketSample type stage alignment.previous start current with
      | error e => cases out <;> simp [hsample, QueryError.evaluating] at h
      | ok sample =>
        obtain ⟨_, out, rfl, hanswer, hout⟩ := List.map_eq_cons_iff.mp h.symm
        obtain rfl := Except.ok.inj (hsample ▸ hanswer)
        obtain rfl := bucketSample_timestamp hsample
        have hrest := ih hout.symm
        simp only [List.map_cons, List.mem_cons] at hrest ⊢
        grind

theorem transduced_timestamps {items samples : List (Sample Row)} (hf : grid.Floors)
    (ho : InOrder items)
    (h : transduced (step grid type stage) initial (items.map .ok) = samples.map .ok) :
    (samples.map (·.timestamp)).Pairwise (· < ·) ∧
      ∀ b, b ∈ samples.map (·.timestamp) ↔ ∃ s ∈ items, grid.align s.timestamp = some b := by
  have hstarts : OnStarts grid none (transduced (step grid type stage) initial (items.map .ok)) :=
    onStarts_transduced hf []
      (by simpa [List.filterMap_map, Function.comp_def, Except.toOption] using ho) (by simp)
  rw [h, Grid.onStarts_map_ok] at hstarts
  refine ⟨hstarts.2.1, fun b => ?_⟩
  simpa [initial] using mem_transduced (b := b) h

end Alignment

namespace Rowset

theorem align_eq_ok (grid : Grid) {rowset : Rowset} {field : Field}
    (hfields : rowset.fields = [field]) (hnumeric : field.dataType.isNumeric = true)
    (hrequired : field.required = true) :
    rowset.align grid = .ok ⟨[field], Stream.guard <| rowset.rows.transduce
      (Alignment.step grid field.dataType ("align(" ++ field.urn ++ ")")) .initial⟩ := by
  refine map_eq_ok.mpr ⟨⟨field, _⟩, ?_, rfl⟩
  simp only [alignSingle, bind_eq_ok, throw_unless_eq_ok, pure_eq_ok, QueryError.compiling_eq_ok,
    singleField_eq_ok]
  exact ⟨field, hfields, by simp [hnumeric], by simp [hrequired], rfl⟩

/-- The alignment of a series in order answers once for each bucket that has
samples, in the order of the buckets, and ends with the first bucket that
fails. -/
theorem align_answers_each_bucket {spec : PeriodSpec} {period : Period}
    (hspec : spec.build = .ok period) {rowset : Rowset} {field : Field}
    {items : List (Sample Row)} (hfields : rowset.fields = [field])
    (hnumeric : field.dataType.isNumeric = true) (hrequired : field.required = true)
    (hanswers : rowset.rows.answers = items.map .ok) (ho : InOrder items)
    (hcalendar : ∀ s ∈ items, period.grid.align s.timestamp ≠ none) :
    ∃ aligned starts answers, rowset.align period.grid = .ok aligned ∧ aligned.fields = [field] ∧
      starts.Pairwise (· < ·) ∧
      (∀ b, b ∈ starts ↔ ∃ s ∈ items, period.grid.align s.timestamp = some b) ∧
      BucketAnswers period.grid field items none starts answers ∧
      aligned.rows.answers = untilError answers ∧
      ∀ out : List (Sample Row), aligned.rows.answers = out.map .ok →
        out.map (·.timestamp) = starts := by
  obtain ⟨starts, hbuckets, hascending, hmem⟩ :=
    Alignment.transduced_answers (PeriodSpec.lawful hspec) field [] ho hcalendar
  refine ⟨_, starts, _, align_eq_ok period.grid hfields hnumeric hrequired, rfl, hascending,
    fun b => ?_, hbuckets, ?_, fun out hout => ?_⟩
  · rw [hmem, Alignment.bucket_after_nil]
    simp
  · rw [Stream.answers_guard, Stream.answers_transduce, hanswers]
    rfl
  · rw [Stream.answers_guard, Stream.answers_transduce, hanswers, untilError_eq_map_ok] at hout
    rw [Alignment.after_nil, hout] at hbuckets
    exact hbuckets.timestamps

def february : Instant := .ofNanos 2674800000000000

def january : Instant := .ofNanos (-3600000000000)

def twoMonths : List (Sample Row) :=
  [⟨.epoch, [.integer 1]⟩, ⟨.ofNanos 86400000000000, [.integer 5]⟩,
    ⟨february, [.integer 9]⟩]

theorem twoMonths_inOrder : InOrder twoMonths := by
  simp only [InOrder, twoMonths]
  decide

theorem align_answers_two_months :
    ∃ period, (PeriodSpec.calendar .month 3600).build = .ok period ∧ InOrder twoMonths ∧
      (∀ s ∈ twoMonths, period.grid.align s.timestamp ≠ none) ∧
      ∃ aligned starts answers,
        Rowset.align period.grid ⟨[.plain "m" .integer true], .ofAnswers (twoMonths.map .ok)⟩ =
          .ok aligned ∧
        aligned.fields = [.plain "m" .integer true] ∧ starts.Pairwise (· < ·) ∧
        (∀ b, b ∈ starts ↔ ∃ s ∈ twoMonths, period.grid.align s.timestamp = some b) ∧
        BucketAnswers period.grid (.plain "m" .integer true) twoMonths none starts answers ∧
        aligned.rows.answers = untilError answers ∧
        ∀ out : List (Sample Row), aligned.rows.answers = out.map .ok →
          out.map (·.timestamp) = starts := by
  have hspec : (PeriodSpec.calendar .month 3600).build =
      .ok (.calendar ⟨.month, ⟨3600, by decide, by decide⟩⟩) := rfl
  have hcalendar : ∀ s ∈ twoMonths, (Period.calendar
      ⟨.month, ⟨3600, by decide, by decide⟩⟩).grid.align s.timestamp ≠ none := by decide
  exact ⟨_, hspec, twoMonths_inOrder, hcalendar,
    align_answers_each_bucket hspec rfl rfl rfl rfl twoMonths_inOrder hcalendar⟩

end Rowset

end SeriesQuery
