import SeriesQuery.Proofs.Resample.Align
import SeriesQuery.Proofs.Time.Elapsed

/-!
# The weights of an alignment

An alignment interpolates at the start of a bucket, between the last sample before
it and the first one in it. Instants are told apart by nanoseconds and elapsed time
by microseconds, so the weight is a number between zero and one if the samples are
a microsecond apart, and none if they are nearer to each other. This is said of
samples outside of leap seconds, from which less time can elapse than none.
-/

namespace SeriesQuery

def weightBetween (first target last : Instant) : Float :=
  secondsBetween first target / secondsBetween first last

def valueAt (type : DataType) (first last : Value) (weight : Float) : Except EvalError Value := do
  let start ← type.toDecimal first
  let finish ← type.toDecimal last
  type.ofDecimal (start + (finish - start) * weight)

/-- What an interpolation strictly between two samples computes with. The count
that it divides by is zero, and the weight no number, only for samples within a
microsecond. -/
structure Weighs (first target last : Instant) : Prop where
  after : first < target
  before : target < last
  count_nonneg : 0 ≤ microsBetween first target
  count_le : microsBetween first target ≤ microsBetween first last
  count_eq_zero : microsBetween first last = 0 ↔ last.nanos - first.nanos < 1000
  divisor_eq_zero : (secondsBetween first last == 0) = true ↔ last.nanos - first.nanos < 1000
  bounds : 1000 ≤ last.nanos - first.nanos →
    0 ≤ weightBetween first target last ∧ weightBetween first target last ≤ 1
  undefined : last.nanos - first.nanos < 1000 → (weightBetween first target last).isNaN = true

theorem Weighs.of_between {first target last : Instant} (hf : ¬ first.IsLeap)
    (ht : ¬ target.IsLeap) (hl : ¬ last.IsLeap) (h : first < target) (h' : target < last) :
    Weighs first target last := by
  have hpart := nanosBetween_nonneg hf ht (Std.le_of_lt h)
  have hmono := nanosBetween_mono hf ht hl (Std.le_of_lt h')
  have hwhole := nanosBetween_eq hf hl
  rw [hwhole] at hmono
  exact {
    after := h
    before := h'
    count_nonneg := microsBetween_nonneg hpart
    count_le := microsBetween_mono hpart (hwhole ▸ hmono)
    count_eq_zero := by
      rw [microsBetween_eq_zero (hwhole ▸ hpart.trans hmono), hwhole]
    divisor_eq_zero := by
      rw [secondsBetween_beq_zero_iff, hwhole]
      omega
    bounds := fun hspan => secondsBetween_ratio hpart (hwhole ▸ hmono) (hwhole ▸ hspan)
    undefined := fun hspan => secondsBetween_ratio_of_lt hpart (hwhole ▸ hmono) (hwhole ▸ hspan) }

theorem interpolate_eq_valueAt {first last : Sample Value} {target : Instant}
    (h : first.timestamp < target) (h' : target < last.timestamp) :
    interpolate type first last target =
      valueAt type first.value last.value
        (weightBetween first.timestamp target last.timestamp) := by
  have hinside : ¬ (target < first.timestamp ∨ last.timestamp < target) := by
    rintro (hbelow | habove)
    · exact Std.lt_irrefl (Std.lt_trans h hbelow)
    · exact Std.lt_irrefl (Std.lt_trans h' habove)
  have hapart : first.timestamp ≠ last.timestamp := fun heq =>
    Std.lt_irrefl (Std.lt_trans h (heq ▸ h'))
  rw [interpolate, if_neg hinside]
  simp only [hapart, if_false]
  rfl

namespace Alignment

variable {grid : Grid} {field : Field} {alignment : Alignment}
  {previous current : Sample Row} {seen rest : List (Sample Row)}

def reached (grid : Grid) (field : Field) (seen : List (Sample Row)) : Alignment :=
  seen.foldl (fun alignment sample =>
    (step grid field.dataType ("align(" ++ field.urn ++ ")") alignment sample).1) initial

theorem reached_singleton (hb : grid.align current.timestamp = some b) :
    reached grid field [current] = ⟨some b, some current⟩ := by
  rw [reached, List.foldl_cons, step_initial hb, List.foldl_nil]

/-- A sample is the first one of a later bucket and does not lie on its start. -/
structure Interpolates (grid : Grid) (alignment : Alignment) (previous current : Sample Row)
    (start : Instant) : Prop where
  previous : alignment.previous = some previous
  bucket : grid.align current.timestamp = some start
  entered : alignment.bucket ≠ some start
  inside : current.timestamp ≠ start

theorem step_interpolates (h : Interpolates grid alignment previous current start) :
    step grid type stage alignment current = (⟨some start, some current⟩, some <|
      QueryError.evaluating ((EvalError.within stage
        (interpolate type previous.scalar current.scalar start)).map fun value =>
          ⟨start, [value]⟩)) := by
  simp only [step, h.bucket, h.entered, if_false, bucketSample, h.previous, h.inside]

theorem step_fst (grid : Grid) (type : DataType) (stage : String) (alignment : Alignment)
    (current : Sample Row) : (step grid type stage alignment current).1 = alignment ∨
      ∃ b, grid.align current.timestamp = some b ∧
        (step grid type stage alignment current).1 = ⟨some b, some current⟩ := by
  rw [step]
  cases grid.align current.timestamp with
  | none => exact .inl rfl
  | some b =>
    refine .inr ⟨b, rfl, ?_⟩
    dsimp only
    split <;> rfl

/-- The last sample lies in the last bucket, and before all that follow. -/
def Behind (grid : Grid) (rest : List (Sample Row)) (alignment : Alignment) : Prop :=
  ∀ previous, alignment.previous = some previous →
    (∃ b, alignment.bucket = some b ∧ grid.align previous.timestamp = some b) ∧
      ∀ s ∈ rest, previous.timestamp < s.timestamp

theorem behind_initial : Behind grid rest initial := fun _ h => nomatch h

theorem Behind.step (h : Behind grid (current :: rest) alignment)
    (hlater : ∀ s ∈ rest, current.timestamp < s.timestamp) :
    Behind grid rest (step grid type stage alignment current).1 := by
  obtain heq | ⟨b, hb, heq⟩ := step_fst grid type stage alignment current
  · rw [heq]
    intro previous hprevious
    obtain ⟨hbucket, hbefore⟩ := h previous hprevious
    exact ⟨hbucket, fun s hs => hbefore s (List.mem_cons_of_mem _ hs)⟩
  · rw [heq]
    rintro _ ⟨rfl⟩
    exact ⟨⟨b, rfl, hb⟩, hlater⟩

theorem behind_reached (hascending : (seen ++ rest).Pairwise (·.timestamp < ·.timestamp)) :
    Behind grid rest (reached grid field seen) := by
  have hrun : ∀ alignment, Behind grid (seen ++ rest) alignment →
      Behind grid rest (seen.foldl (fun alignment sample =>
        (Alignment.step grid field.dataType ("align(" ++ field.urn ++ ")") alignment sample).1)
          alignment) := by
    induction seen with
    | nil => exact fun _ h => h
    | cons current seen ih =>
      obtain ⟨hlater, hascending⟩ := List.pairwise_cons.mp hascending
      exact fun _ h => ih hascending _ (h.step hlater)
  exact hrun _ behind_initial

theorem Interpolates.between (hl : grid.Lawful) (hbehind : Behind grid (current :: rest) alignment)
    (h : Interpolates grid alignment previous current start) :
    previous.timestamp < start ∧ start < current.timestamp := by
  obtain ⟨⟨b, hbucket, halign⟩, hbefore⟩ := hbehind previous h.previous
  have hle := hl.start_le h.bucket
  have hoff := h.inside
  have hmono := hl.mono (Std.le_of_lt (hbefore current List.mem_cons_self)) halign h.bucket
  have hne : b ≠ start := fun heq => h.entered (heq ▸ hbucket)
  refine ⟨?_, by grind⟩
  rw [← Std.not_le]
  intro hbehind
  have hback := hl.mono hbehind (hl.align_start h.bucket) halign
  grind

end Alignment

namespace Rowset

variable {rowset : Rowset} {field : Field} {items : List (Sample Row)}
  {failure : Option QueryError}

/-- Where the timestamps of a series ascend, each interpolation of an alignment
is strictly between its samples, and its weight a number from zero to one if they
are a microsecond apart and in no leap second. -/
theorem align_weighs_between {spec : PeriodSpec} {period : Period}
    (hspec : spec.build = .ok period) (hfields : rowset.fields = [field])
    (hnumeric : field.dataType.isNumeric = true) (hrequired : field.required = true)
    (hanswers : untilError rowset.rows.answers = ended items failure)
    (hascending : items.Pairwise (·.timestamp < ·.timestamp)) :
    ∃ aligned, rowset.align period.grid = .ok aligned ∧
      aligned.rows.answers = untilError (transduced
        (Alignment.step period.grid field.dataType ("align(" ++ field.urn ++ ")")) .initial
        rowset.rows.answers) ∧
      ∀ seen previous current rest start, items = seen ++ current :: rest →
        Alignment.Interpolates period.grid (.reached period.grid field seen) previous current
          start →
        (Alignment.step period.grid field.dataType ("align(" ++ field.urn ++ ")")
          (.reached period.grid field seen) current).2 =
            some (QueryError.evaluating ((EvalError.within ("align(" ++ field.urn ++ ")")
              (valueAt field.dataType previous.value.first current.value.first
                (weightBetween previous.timestamp start current.timestamp))).map
                  fun value => ⟨start, [value]⟩)) ∧
        previous.timestamp < start ∧ start < current.timestamp ∧
        (¬ previous.timestamp.IsLeap → ¬ current.timestamp.IsLeap →
          Weighs previous.timestamp start current.timestamp) := by
  refine ⟨_, align_eq_ok period.grid hfields hnumeric hrequired, ?_, ?_⟩
  · rw [Stream.answers_guard, Stream.answers_transduce]
  · rintro seen previous current rest start rfl hinterpolates
    have hl := PeriodSpec.lawful hspec
    obtain ⟨hafter, hbefore⟩ := hinterpolates.between hl (Alignment.behind_reached hascending)
    have hvalue : interpolate field.dataType previous.scalar current.scalar start = _ :=
      interpolate_eq_valueAt hafter hbefore
    rw [Alignment.step_interpolates hinterpolates, hvalue]
    refine ⟨rfl, hafter, hbefore, fun hprevious hcurrent => ?_⟩
    exact .of_between hprevious (mt (hl.isLeap hinterpolates.bucket) hcurrent) hcurrent hafter
      hbefore

def minute : Instant := .ofNanos 60000000000

def beforeMinute (nanos : Fin 1000) : Sample Row :=
  ⟨.ofNanos (60000000000 - nanos) (by simp only [Instant.firstNanos]; omega)
    (by simp only [Instant.lastNanos]; omega), [.decimal 1]⟩

def behindMinute (nanos : Fin 1000) : Sample Row :=
  ⟨.ofNanos (60000000000 + nanos) (by simp only [Instant.firstNanos]; omega)
    (by simp only [Instant.lastNanos]; omega), [.decimal 1]⟩

def straddling (nanos : Fin 1000) : Rowset :=
  ⟨[.plain "m" .decimal true], .ofAnswers ([beforeMinute nanos, behindMinute nanos].map .ok)⟩

theorem straddling_weighs_between :
    ∃ period aligned, (PeriodSpec.fixed 60 0).build = .ok period ∧
      [beforeMinute 500, behindMinute 500].Pairwise (·.timestamp < ·.timestamp) ∧
      Alignment.Interpolates period.grid
        (.reached period.grid (.plain "m" .decimal true) [beforeMinute 500]) (beforeMinute 500)
        (behindMinute 500) minute ∧
      Rowset.align period.grid (straddling 500) = .ok aligned ∧
      0 ≤ weightBetween (beforeMinute 500).timestamp minute (behindMinute 500).timestamp ∧
      weightBetween (beforeMinute 500).timestamp minute (behindMinute 500).timestamp ≤ 1 := by
  let period : Period := .fixed ⟨60000, .utc, by decide⟩
  have hspec : (PeriodSpec.fixed 60 0).build = .ok period := rfl
  have hascending : [beforeMinute 500, behindMinute 500].Pairwise (·.timestamp < ·.timestamp) :=
    List.pairwise_pair.mpr (by decide)
  have hreached : Alignment.reached period.grid (.plain "m" .decimal true) [beforeMinute 500] =
      ⟨some .epoch, some (beforeMinute 500)⟩ := Alignment.reached_singleton (by decide +kernel)
  have hinterpolates : Alignment.Interpolates period.grid
      (.reached period.grid (.plain "m" .decimal true) [beforeMinute 500]) (beforeMinute 500)
      (behindMinute 500) minute := by
    rw [hreached]
    exact ⟨rfl, by decide +kernel, by decide, by decide⟩
  obtain ⟨aligned, haligned, -, hweighs⟩ := @align_weighs_between (straddling 500) _
    [beforeMinute 500, behindMinute 500] none _ period hspec rfl rfl rfl rfl hascending
  obtain ⟨-, -, -, hweighs⟩ := hweighs [_] _ _ [] _ rfl hinterpolates
  exact ⟨period, aligned, hspec, hascending, hinterpolates, haligned,
    (hweighs (by decide) (by decide)).bounds (by decide)⟩

/-- Samples within a microsecond have none, and their interpolation is no number. -/
theorem straddling_divides_by_zero :
    ∃ period aligned, (PeriodSpec.fixed 60 0).build = .ok period ∧
      [beforeMinute 1, behindMinute 1].Pairwise (·.timestamp < ·.timestamp) ∧
      Alignment.Interpolates period.grid
        (.reached period.grid (.plain "m" .decimal true) [beforeMinute 1]) (beforeMinute 1)
        (behindMinute 1) minute ∧
      microsBetween (beforeMinute 1).timestamp (behindMinute 1).timestamp = 0 ∧
      (weightBetween (beforeMinute 1).timestamp minute (behindMinute 1).timestamp).isNaN = true ∧
      Rowset.align period.grid (straddling 1) = .ok aligned ∧
      ∃ x : Float, x.isNaN = true ∧
        aligned.rows.answers = [.ok ⟨.epoch, [.decimal 1]⟩, .ok ⟨minute, [.decimal x]⟩] := by
  let period : Period := .fixed ⟨60000, .utc, by decide⟩
  have hfirst : period.grid.align (beforeMinute 1).timestamp = some .epoch := by decide +kernel
  have hinterpolates : Alignment.Interpolates period.grid
      ⟨some .epoch, some (beforeMinute 1)⟩ (beforeMinute 1) (behindMinute 1) minute :=
    ⟨rfl, by decide +kernel, by decide, by decide⟩
  have hvalue : interpolate (Field.plain "m" .decimal true).dataType (beforeMinute 1).scalar
      (behindMinute 1).scalar minute = .ok (.decimal (1 + (1 - 1) *
        weightBetween (beforeMinute 1).timestamp minute (behindMinute 1).timestamp)) :=
    interpolate_eq_valueAt (by decide) (by decide)
  refine ⟨period, _, rfl, List.pairwise_pair.mpr (by decide),
    Alignment.reached_singleton hfirst ▸ hinterpolates, by decide, by decide,
    align_eq_ok period.grid rfl rfl rfl,
    1 + (1 - 1) * weightBetween (beforeMinute 1).timestamp minute (behindMinute 1).timestamp,
    by decide, ?_⟩
  rw [Stream.answers_guard, Stream.answers_transduce]
  simp only [straddling, Stream.answers_ofAnswers, List.map_cons, List.map_nil, transduced,
    Alignment.step_initial hfirst, Alignment.step_interpolates hinterpolates]
  rw [hvalue]
  rfl

end Rowset

end SeriesQuery
