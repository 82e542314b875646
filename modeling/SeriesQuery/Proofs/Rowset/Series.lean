import SeriesQuery.Proofs.Rowset.Conforming

/-!
# Conforming series

The stages on rowsets of one field trust the values that they are given and do
not check those that they answer. Each of them answers values of the type that
its field tells: interpolated values and differences have the type of the
series, rates and means are decimals, counts are integers, and an extreme is
one of the values that it was chosen from.
-/

namespace SeriesQuery

variable {E : QueryError → Prop}

-- ---------------------------------------------------------------------------
-- Rowsets of one field
-- ---------------------------------------------------------------------------

theorem conforms_one {field : Field} {row : Row} :
    row.Conforms [field] ↔ ∃ value, row = [value] ∧ field.Admits value := by
  constructor
  · intro h
    cases h with
    | cons hv hrest =>
      cases hrest
      exact ⟨_, rfl, hv⟩
  · rintro ⟨value, rfl, hv⟩
    exact .cons hv .nil

theorem conforms_value {field : Field} {value : Value}
    (h : value.dataType? = some field.dataType) : Row.Conforms [field] [value] :=
  conforms_one.mpr ⟨value, rfl, Field.admits_of_dataType h⟩

theorem first_admits {field : Field} {row : Row} (h : row.Conforms [field]) :
    field.Admits row.first := by
  obtain ⟨value, rfl, hv⟩ := conforms_one.mp h
  exact hv

theorem first_dataType {field : Field} {row : Row} (h : row.Conforms [field])
    (hr : field.required = true) : row.first.dataType? = some field.dataType :=
  (first_admits h).dataType_of_required hr

namespace Rowset

theorem singleField_eq_ok {rowset : Rowset} {field : Field} :
    rowset.singleField stage = .ok field ↔ rowset.fields = [field] := by
  unfold singleField
  split
  · next heq => simp [heq]
  · next hne => simpa using hne field

theorem numericField_eq_ok {rowset : Rowset} {field : Field} :
    rowset.numericField stage = .ok field ↔
      rowset.fields = [field] ∧ field.dataType.isNumeric = true ∧ field.required = true := by
  have hnumeric : ∀ type : DataType,
      (∃ u, type.requireNumeric = .ok u) ↔ type.isNumeric = true := by
    intro type
    cases type <;> simp [DataType.requireNumeric, DataType.isNumeric]
  simp only [numericField, bind_eq_ok, singleField_eq_ok, CompileError.within_eq_ok,
    throw_unless_eq_ok, pure_eq_ok]
  constructor
  · rintro ⟨_, hfields, u, hu, hrequired, rfl⟩
    exact ⟨hfields, (hnumeric _).mp ⟨u, hu⟩, by simpa using hrequired⟩
  · rintro ⟨hfields, htype, hrequired⟩
    obtain ⟨u, hu⟩ := (hnumeric _).mpr htype
    exact ⟨field, hfields, u, hu, by simp [hrequired], rfl⟩

end Rowset

-- ---------------------------------------------------------------------------
-- Computed values
-- ---------------------------------------------------------------------------

theorem DataType.ofDecimal_dataType {type : DataType} (h : type.ofDecimal x = .ok v) :
    v.dataType? = some type := by
  cases type <;> simp [ofDecimal, map_eq_ok] at h
  case integer =>
    obtain ⟨i, -, rfl⟩ := h
    rfl
  case decimal =>
    subst h
    rfl

theorem interpolate_dataType {first last : Sample Value}
    (h : interpolate type first last target = .ok v) : v.dataType? = some type := by
  simp only [interpolate, throw_unless_eq_ok, bind_eq_ok] at h
  obtain ⟨-, start, -, finish, -, h⟩ := h
  split at h
  · exact DataType.ofDecimal_dataType h
  · exact DataType.ofDecimal_dataType h

-- ---------------------------------------------------------------------------
-- Alignment
-- ---------------------------------------------------------------------------

theorem bucketSample_conforms {field : Field} {previous : Option (Sample Row)}
    {current out : Sample Row} (hc : current.value.Conforms [field])
    (h : Alignment.bucketSample field.dataType stage previous start current = .ok out) :
    out.value.Conforms [field] := by
  unfold Alignment.bucketSample at h
  split at h
  · cases h
    exact conforms_one.mpr ⟨_, rfl, first_admits hc⟩
  · split at h
    · cases h
      exact hc
    · obtain ⟨value, hvalue, rfl⟩ := map_eq_ok.mp h
      exact conforms_value (interpolate_dataType (EvalError.within_eq_ok.mp hvalue))

theorem alignSingle_eq_ok {rowset : Rowset} {single : SingleRowset}
    (h : rowset.alignSingle grid = .ok single) :
    rowset.fields = [single.field] ∧ single.field.required = true ∧
      single.rows = Stream.guard (rowset.rows.transduce (Alignment.step grid single.field.dataType
        ("align(" ++ single.field.urn ++ ")")) .initial) := by
  simp only [Rowset.alignSingle, bind_eq_ok, throw_unless_eq_ok, pure_eq_ok,
    QueryError.compiling_eq_ok, Rowset.singleField_eq_ok] at h
  obtain ⟨field, hfield, -, hrequired, rfl⟩ := h
  exact ⟨hfield, by simpa using hrequired, rfl⟩

theorem alignSingle_numeric {rowset : Rowset} {single : SingleRowset}
    (h : rowset.alignSingle grid = .ok single) : single.field.dataType.isNumeric = true := by
  simp only [Rowset.alignSingle, bind_eq_ok, throw_unless_eq_ok, pure_eq_ok] at h
  obtain ⟨field, -, hnumeric, -, rfl⟩ := h
  simpa using hnumeric

theorem Rowset.alignSingle_always {rowset : Rowset} {single : SingleRowset}
    (hcancel : E .cancelled) (hcalendar : E .outOfCalendar)
    (hv : ∀ stage previous start current,
      (∀ before, previous = some before → before.value.Conforms [single.field]) →
      current.value.Conforms [single.field] →
      Outcome (Alignment.bucketSample single.field.dataType stage previous start current)
        (fun _ => True) fun e => E (.eval e))
    (h : rowset.rows.Always (fun s => s.value.Conforms rowset.fields) E)
    (ho : rowset.alignSingle grid = .ok single) :
    single.rows.Always (fun s => s.value.Conforms [single.field]) E := by
  obtain ⟨hfields, -, hrows⟩ := alignSingle_eq_ok ho
  rw [hfields] at h
  rw [hrows]
  let Inv : Alignment → Prop := fun alignment =>
    ∀ before, alignment.previous = some before → before.value.Conforms [single.field]
  have hstart : Inv .initial := by simp [Inv, Alignment.initial]
  refine (h.transduce Inv (fun _ he => he) (fun alignment current hinv hc => ?_) hstart).guard
    hcancel
  have hnext : ∀ bucket, Inv ⟨bucket, some current⟩ := by
    intro bucket before hbefore
    cases hbefore
    exact hc
  unfold Alignment.step
  split
  · refine ⟨hinv, fun answer ha => ?_⟩
    cases ha
    exact hcalendar
  · split
    · exact ⟨hnext _, by simp⟩
    · refine ⟨hnext _, fun answer ha => ?_⟩
      cases ha
      exact evaluating_outcome (hv _ _ _ _ hinv hc) fun out hout => bucketSample_conforms hc hout

theorem Rowset.Conforming.alignSingle {rowset : Rowset} {single : SingleRowset}
    (h : rowset.Conforming) (ho : rowset.alignSingle grid = .ok single) :
    single.toRowset.Conforming :=
  alignSingle_always trivial trivial (fun _ _ _ _ _ _ => .any) h ho

theorem Rowset.Conforming.align {rowset out : Rowset} (h : rowset.Conforming)
    (ho : rowset.align grid = .ok out) : out.Conforming := by
  obtain ⟨single, hsingle, rfl⟩ := map_eq_ok.mp ho
  exact h.alignSingle hsingle

-- ---------------------------------------------------------------------------
-- Filled gaps
-- ---------------------------------------------------------------------------

namespace GapFill

variable {field : Field} {mode : FillMode} {before after : Sample Row}

theorem fillSample_conforms {out : Sample Row} (hb : before.value.Conforms [field])
    (h : fillSample mode field.dataType before after boundary = .ok out) :
    out.value.Conforms [field] := by
  unfold fillSample at h
  split at h
  · cases h
    exact conforms_one.mpr ⟨_, rfl, first_admits hb⟩
  · obtain ⟨value, hvalue, rfl⟩ := map_eq_ok.mp h
    exact conforms_value (interpolate_dataType hvalue)

structure Faults (fill : GapFill) (field : Field) (stage : String) (E : QueryError → Prop) :
    Prop where
  cancelled : E .cancelled
  outOfCalendar : E .outOfCalendar
  tooLarge : ∀ start finish, E (.eval (.context stage (.gapTooLarge start finish fill.limit)))
  nonAdvancing : ∀ boundary, E (.eval (.context stage (.nonAdvancingPeriod boundary)))
  sample : ∀ before after boundary, before.value.Conforms [field] → after.value.Conforms [field] →
    Outcome (fillSample fill.mode field.dataType before after boundary) (fun _ => True)
      fun e => E (.eval (.context stage e))

theorem fillFrom_always {fill : GapFill} {continued : Pull (Sample Row)}
    (hf : fill.Faults field stage E) (hb : before.value.Conforms [field])
    (ha : after.value.Conforms [field])
    (hc : continued.Always (fun s => s.value.Conforms [field]) E) :
    (fill.fillFrom field.dataType stage before after continued budget boundary).Always
      (fun s => s.value.Conforms [field]) E := by
  induction budget generalizing boundary with
  | zero =>
    unfold fillFrom
    split
    · exact Pull.always_failed (hf.tooLarge _ _)
    · exact hc
  | succ budget ih =>
    unfold fillFrom
    split
    · have hfilled := hf.sample before after boundary hb ha
      split
      · next e he =>
        rw [he] at hfilled
        exact Pull.always_failed hfilled
      · next sample hsample =>
        split
        · exact Pull.always_failed hf.outOfCalendar
        · split
          · exact Pull.always_failed (hf.nonAdvancing _)
          · exact .item (fillSample_conforms hb hsample) fun _ => ih
    · exact hc

theorem run_always {fill : GapFill} {pull : Pull (Sample Row)} (hf : fill.Faults field stage E)
    (h : pull.Always (fun s => s.value.Conforms [field]) E)
    (hb : ∀ s, before? = some s → s.value.Conforms [field]) :
    (fill.run field.dataType stage before? pull).Always (fun s => s.value.Conforms [field]) E := by
  induction pull generalizing before? with
  | stop => exact Pull.always_stop
  | item answer next ih =>
    cases answer with
    | error e => exact Pull.always_failed h.1
    | ok sample =>
      have hcontinued : (Pull.item (.ok sample) fun cancelled =>
          fill.run field.dataType stage (some sample) (next cancelled)).Always
            (fun s => s.value.Conforms [field]) E := by
        refine .item h.1 fun cancelled => ih cancelled (h.2 cancelled) fun s hs => ?_
        cases hs
        exact h.1
      unfold run
      split
      · exact hcontinued
      · next before =>
        split
        · exact Pull.always_failed hf.outOfCalendar
        · split
          · exact Pull.always_failed (hf.nonAdvancing _)
          · exact fillFrom_always hf (hb before rfl) h.1 hcontinued

end GapFill

theorem Rowset.gapFill_always {rowset out : Rowset}
    (hf : ∀ field stage, rowset.fields = [field] →
      (fill.mode = .linear → field.dataType.isNumeric = true) → fill.Faults field stage E)
    (h : rowset.rows.Always (fun s => s.value.Conforms rowset.fields) E)
    (ho : rowset.gapFill fill = .ok out) :
    out.rows.Always (fun s => s.value.Conforms out.fields) E := by
  simp only [Rowset.gapFill, bind_eq_ok, throw_unless_eq_ok, pure_eq_ok,
    QueryError.compiling_eq_ok, Rowset.singleField_eq_ok] at ho
  obtain ⟨field, hfield, hnumeric, rfl⟩ := ho
  rw [hfield] at h
  have hfaults : fill.Faults field ("gap_fill(" ++ field.urn ++ ")") E :=
    hf field _ hfield (by simpa using hnumeric)
  have hrun : Stream.Always (fun s => Row.Conforms [field] s.value) E
      fun cancelled => fill.run field.dataType ("gap_fill(" ++ field.urn ++ ")") none
        (rowset.rows cancelled) :=
    fun cancelled => GapFill.run_always hfaults (h cancelled) (by simp)
  exact hrun.guard hfaults.cancelled

theorem Rowset.Conforming.gapFill {rowset out : Rowset} (h : rowset.Conforming)
    (ho : rowset.gapFill fill = .ok out) : out.Conforming :=
  gapFill_always (fun _ _ _ _ => ⟨trivial, trivial, fun _ _ => trivial, fun _ => trivial,
    fun _ _ _ _ _ => .any⟩) h ho

-- ---------------------------------------------------------------------------
-- Derivations
-- ---------------------------------------------------------------------------

namespace Derivation

/-- From samples of one type a derivation keeps such samples and answers values
of another type. -/
def Maps (derivation : Derivation) (source target : DataType) : Prop :=
  ∀ previous current, (∀ before, previous = some before → before.value.dataType? = some source) →
    current.value.dataType? = some source →
    (∀ kept, (derivation previous current).1 = some kept → kept.value.dataType? = some source) ∧
      ∀ v, (derivation previous current).2 = .ok (some v) → v.dataType? = some target

theorem subtract_dataType {type : DataType} (hc : current.dataType? = some type)
    (h : subtract type current previous = .ok v) : v.dataType? = some type := by
  unfold subtract at h
  split at h
  · split at h
    · cases h
      exact hc
    · cases h
  · simp only [bind_eq_ok] at h
    obtain ⟨a, -, b, -, h⟩ := h
    exact DataType.ofDecimal_dataType h

theorem delta_maps {type : DataType} : (delta type).Maps type type := by
  intro previous current _ hc
  refine ⟨fun kept hkept => by cases hkept; exact hc, fun v hv => ?_⟩
  unfold delta at hv
  cases previous with
  | none => cases hv
  | some before =>
    obtain ⟨w, hw, heq⟩ := map_eq_ok.mp hv
    cases heq
    exact subtract_dataType hc hw

theorem rate_maps {type : DataType} : (rate type).Maps type .decimal := by
  intro previous current _ hc
  refine ⟨fun kept hkept => by cases hkept; exact hc, fun v hv => ?_⟩
  simp only [rate, bind_eq_ok] at hv
  obtain ⟨number, -, hv⟩ := hv
  cases previous with
  | none => cases hv
  | some before =>
    simp only [throw_unless_eq_ok, bind_eq_ok, pure_eq_ok, Option.some.injEq] at hv
    obtain ⟨-, start, -, rfl⟩ := hv
    rfl

theorem wrapped_dataType {type : DataType} (hc : current.dataType? = some type)
    (h : wrapped type maximum current previous = .ok v) : v.dataType? = some type := by
  simp only [wrapped, bind_eq_ok] at h
  obtain ⟨headroom, -, h⟩ := h
  split at h
  · split at h
    · cases h
      exact hc
    · cases h
  · simp only [bind_eq_ok] at h
    obtain ⟨a, -, b, -, h⟩ := h
    exact DataType.ofDecimal_dataType h

theorem increment_dataType {type : DataType} (hc : current.dataType? = some type)
    (h : increment type maximum current previous = .ok v) : v.dataType? = some type := by
  simp only [increment, bind_eq_ok] at h
  obtain ⟨less, -, h⟩ := h
  split at h
  · split at h
    · exact wrapped_dataType hc h
    · cases h
      exact hc
  · exact subtract_dataType hc h

theorem counterDelta_maps {type : DataType} : (counterDelta type maximum).Maps type type := by
  intro previous current hp hc
  unfold counterDelta
  split
  · exact ⟨hp, by simp⟩
  · exact ⟨hp, by simp⟩
  · refine ⟨fun kept hkept => by cases hkept; exact hc, fun v hv => ?_⟩
    cases previous with
    | none => cases hv
    | some before =>
      obtain ⟨w, hw, heq⟩ := map_eq_ok.mp hv
      cases heq
      exact increment_dataType hc hw

end Derivation

namespace Rowset

theorem derive_always {rowset : Rowset} {field output : Field} {derivation : Derivation}
    (hcancel : E .cancelled)
    (hv : ∀ previous current,
      (∀ before, previous = some before → before.value.dataType? = some field.dataType) →
      current.value.dataType? = some field.dataType →
      Outcome (derivation previous current).2 (fun _ => True) fun e => E (.eval (.context stage e)))
    (hfields : rowset.fields = [field]) (hr : field.required = true)
    (hm : derivation.Maps field.dataType output.dataType)
    (h : rowset.rows.Always (fun s => s.value.Conforms rowset.fields) E) :
    (rowset.derive derivation stage).Always (fun s => s.value.Conforms [output]) E := by
  rw [hfields] at h
  let Inv : Option (Sample Value) → Prop := fun kept =>
    ∀ before, kept = some before → before.value.dataType? = some field.dataType
  have hstart : Inv none := by simp [Inv]
  refine (h.transduce Inv (fun _ he => he) (fun kept sample hkept hsample => ?_) hstart).guard
    hcancel
  have htype := first_dataType hsample hr
  obtain ⟨hkeeps, hvalue⟩ := hm kept sample.scalar hkept htype
  have herror := hv kept sample.scalar hkept htype
  unfold Derivation.step
  rcases hd : derivation kept sample.scalar with ⟨kept', e | _ | v⟩
  · rw [hd] at hkeeps herror
    refine ⟨hkeeps, fun answer ha => ?_⟩
    cases ha
    exact herror
  · rw [hd] at hkeeps
    exact ⟨hkeeps, by simp⟩
  · rw [hd] at hkeeps hvalue
    refine ⟨hkeeps, fun answer ha => ?_⟩
    cases ha
    exact conforms_value (hvalue v rfl)

theorem delta_eq_ok {rowset out : Rowset} (ho : rowset.delta = .ok out) :
    ∃ field, (rowset.fields = [field] ∧ field.dataType.isNumeric = true ∧ field.required = true) ∧
      out = ⟨[field], rowset.derive (.delta field.dataType) ("delta(" ++ field.urn ++ ")")⟩ := by
  simp only [Rowset.delta, bind_eq_ok, QueryError.compiling_eq_ok, numericField_eq_ok,
    pure_eq_ok] at ho
  obtain ⟨field, hfield, rfl⟩ := ho
  exact ⟨field, hfield, rfl⟩

theorem rate_eq_ok {rowset out : Rowset} (ho : rowset.rate = .ok out) :
    ∃ field, (rowset.fields = [field] ∧ field.dataType.isNumeric = true ∧ field.required = true) ∧
      out = ⟨[{ field.retype .decimal true with unit := field.unit.map (· ++ "/s") }],
        rowset.derive (.rate field.dataType) ("rate(" ++ field.urn ++ ")")⟩ := by
  simp only [Rowset.rate, bind_eq_ok, QueryError.compiling_eq_ok, numericField_eq_ok,
    pure_eq_ok] at ho
  obtain ⟨field, hfield, rfl⟩ := ho
  exact ⟨field, hfield, rfl⟩

theorem counterDelta_eq_ok {rowset out : Rowset} (ho : rowset.counterDelta maximum = .ok out) :
    ∃ field coerced,
      (rowset.fields = [field] ∧ field.dataType.isNumeric = true ∧ field.required = true) ∧
      counterMaximum field maximum = .ok coerced ∧
      out = ⟨[field], rowset.derive (.counterDelta field.dataType coerced)
        ("counter_delta(" ++ field.urn ++ ")")⟩ := by
  simp only [Rowset.counterDelta, bind_eq_ok, QueryError.compiling_eq_ok, numericField_eq_ok,
    pure_eq_ok] at ho
  obtain ⟨field, hfield, coerced, hcoerced, rfl⟩ := ho
  exact ⟨field, coerced, hfield, hcoerced, rfl⟩

theorem Conforming.delta {rowset out : Rowset} (h : rowset.Conforming)
    (ho : rowset.delta = .ok out) : out.Conforming := by
  obtain ⟨field, ⟨hfields, -, hr⟩, rfl⟩ := delta_eq_ok ho
  exact derive_always trivial (fun _ _ _ _ => .any) hfields hr Derivation.delta_maps h

theorem Conforming.rate {rowset out : Rowset} (h : rowset.Conforming)
    (ho : rowset.rate = .ok out) : out.Conforming := by
  obtain ⟨field, ⟨hfields, -, hr⟩, rfl⟩ := rate_eq_ok ho
  exact derive_always trivial (fun _ _ _ _ => .any) hfields hr Derivation.rate_maps h

theorem Conforming.counterDelta {rowset out : Rowset} (h : rowset.Conforming)
    (ho : rowset.counterDelta maximum = .ok out) : out.Conforming := by
  obtain ⟨field, coerced, ⟨hfields, -, hr⟩, -, rfl⟩ := counterDelta_eq_ok ho
  exact derive_always trivial (fun _ _ _ _ => .any) hfields hr Derivation.counterDelta_maps h

end Rowset

-- ---------------------------------------------------------------------------
-- Reductions
-- ---------------------------------------------------------------------------

/-- The accumulator of a reduction of values of a type that has taken a number
of values. -/
inductive Accumulator.Runs (type : DataType) : Reduction → Nat → Accumulator → Prop where
  | sum : Runs type .sum n (.sum type integer decimal)
  | avg : Runs type .avg n (.avg type total n)
  | minNone : Runs type .min 0 (.extreme type .lt none)
  | minSome : best.dataType? = some type → Runs type .min (n + 1) (.extreme type .lt (some best))
  | maxNone : Runs type .max 0 (.extreme type .gt none)
  | maxSome : best.dataType? = some type → Runs type .max (n + 1) (.extreme type .gt (some best))
  | count : Runs type .count n (.count taken)

namespace Accumulator

variable {type : DataType} {reduction : Reduction} {accumulator next : Accumulator}

theorem runs_start : Runs type reduction 0 (reduction.start type) := by
  cases reduction <;> constructor

theorem add_sum (h : (sum type integer decimal).add value = .ok next) :
    ∃ integer' decimal', next = .sum type integer' decimal' := by
  cases type
  case integer =>
    simp only [add] at h
    split at h
    · split at h
      · cases h
        exact ⟨_, _, rfl⟩
      · cases h
    · simp only [bind_eq_ok, pure_eq_ok] at h
      obtain ⟨x, -, rfl⟩ := h
      exact ⟨_, _, rfl⟩
  all_goals
    simp only [add, bind_eq_ok, pure_eq_ok] at h
    obtain ⟨x, -, rfl⟩ := h
    exact ⟨_, _, rfl⟩

theorem add_extreme (h : (extreme type wanted current).add value = .ok next) :
    ∃ best, next = .extreme type wanted (some best) ∧
      (best.dataType? = some type ∨ current = some best) := by
  simp only [add, bind_eq_ok] at h
  obtain ⟨_, hvalid, h⟩ := h
  have hvalue := DataType.validate_eq_ok.mp hvalid
  cases current with
  | none =>
    cases h
    exact ⟨value, rfl, .inl hvalue⟩
  | some best =>
    simp only [bind_eq_ok] at h
    obtain ⟨order, -, h⟩ := h
    split at h
    · cases h
      exact ⟨value, rfl, .inl hvalue⟩
    · cases h
      exact ⟨best, rfl, .inr rfl⟩

theorem Runs.add (h : Runs type reduction n accumulator) (ha : accumulator.add value = .ok next) :
    Runs type reduction (n + 1) next := by
  cases h with
  | sum =>
    obtain ⟨_, _, rfl⟩ := add_sum ha
    exact .sum
  | avg =>
    simp only [Accumulator.add, bind_eq_ok, pure_eq_ok] at ha
    obtain ⟨x, -, rfl⟩ := ha
    exact .avg
  | minNone =>
    obtain ⟨best, rfl, hbest | hbest⟩ := add_extreme ha
    · exact .minSome hbest
    · cases hbest
  | minSome hcurrent =>
    obtain ⟨best, rfl, hbest | hbest⟩ := add_extreme ha
    · exact .minSome hbest
    · cases hbest
      exact .minSome hcurrent
  | maxNone =>
    obtain ⟨best, rfl, hbest | hbest⟩ := add_extreme ha
    · exact .maxSome hbest
    · cases hbest
  | maxSome hcurrent =>
    obtain ⟨best, rfl, hbest | hbest⟩ := add_extreme ha
    · exact .maxSome hbest
    · cases hbest
      exact .maxSome hcurrent
  | count =>
    cases ha
    exact .count

theorem Runs.result (h : Runs type reduction (n + 1) accumulator)
    (hv : accumulator.result = .ok v) : v.dataType? = some (reduction.outputType type) := by
  cases h with
  | sum =>
    cases type
    case integer =>
      cases hv
      rfl
    all_goals
      simp only [Accumulator.result] at hv
      exact DataType.ofDecimal_dataType hv
  | avg =>
    cases hv
    rfl
  | minSome hbest =>
    cases hv
    exact hbest
  | maxSome hbest =>
    cases hv
    exact hbest
  | count =>
    cases hv
    rfl

theorem Runs.exists_result (h : Runs type reduction n accumulator) (hn : type.isNumeric = true) :
    ∃ value, accumulator.result = .ok value := by
  cases h with
  | sum => cases type <;> first | exact ⟨_, rfl⟩ | cases hn
  | _ => exact ⟨_, rfl⟩

end Accumulator

namespace Reduction

variable {reduction : Reduction} {type : DataType}

theorem fold_dataType {slots : Slots Row} {row : Row} (hs : ∃ slot ∈ slots, slot ≠ none)
    (h : reduction.fold type stage slots = .ok row) :
    ∃ v, row = [v] ∧ v.dataType? = some (reduction.outputType type) := by
  have hlen : 0 < (slots.filterMap id).length := by
    obtain ⟨slot, hslot, hne⟩ := hs
    obtain ⟨row, rfl⟩ := Option.ne_none_iff_exists'.mp hne
    exact List.length_pos_of_mem (List.mem_filterMap.mpr ⟨_, hslot, rfl⟩)
  simp only [fold, bind_eq_ok, EvalError.within_eq_ok, pure_eq_ok] at h
  obtain ⟨accumulator, hfold, v, hv, rfl⟩ := h
  have hruns := foldlM_keeps (Accumulator.Runs type reduction) (fun n s row t hs ht => ?_)
    Accumulator.runs_start hfold
  · rw [Nat.zero_add, ← Nat.succ_pred_eq_of_pos hlen] at hruns
    exact ⟨v, rfl, hruns.result hv⟩
  · split at ht
    · exact hs.add ht
    · cases ht

end Reduction

namespace Rowset

theorem checkInputs_eq_ok {type : DataType} {singles : List SingleRowset} :
    checkInputs type index singles = .ok () ↔
      ∀ single ∈ singles, single.field.dataType = type ∧ single.field.required = true := by
  induction singles generalizing index with
  | nil => simp [checkInputs]
  | cons single rest ih =>
    rw [checkInputs, List.forall_mem_cons]
    split
    · next htype => simp [htype]
    · split
      · next hrequired => simp_all
      · next htype hrequired => simp_all

theorem reduceAligned_always {singles : List SingleRowset} {out : Rowset} (hcancel : E .cancelled)
    (hu : ∀ input a b, E (.eval (.unsorted input a b)))
    (hv : ∀ type stage slots, (∀ single ∈ singles, single.field.dataType = type) →
      (∀ row, some row ∈ slots → ∃ value, row = [value] ∧ value.dataType? = some type) →
      Outcome (reduction.fold type stage slots) (fun _ => True)
        fun e => E (.eval (.context "join" e)))
    (h : ∀ single ∈ singles, single.rows.Always (fun s => s.value.Conforms [single.field]) E ∧
      single.field.required = true)
    (ho : reduceAligned reduction template singles = .ok out) :
    out.rows.Always (fun s => s.value.Conforms out.fields) E := by
  cases singles with
  | nil => cases ho
  | cons first rest =>
    simp only [reduceAligned, bind_eq_ok, QueryError.compiling_eq_ok] at ho
    obtain ⟨_, hchecked, ho⟩ := ho
    have htype := fun single hsingle => (checkInputs_eq_ok.mp hchecked single hsingle).1
    split at ho
    · -- the only input passes: its values have the type of the result already
      next halone =>
      obtain ⟨hfirst, hrequired⟩ := h first List.mem_cons_self
      obtain ⟨-, hidentity⟩ := Bool.and_eq_true_iff.mp halone
      obtain rfl := pure_eq_ok.mp ho
      refine hfirst.mono (fun sample hs => ?_) fun _ he => he
      obtain ⟨value, heq, hv⟩ := conforms_one.mp hs
      refine conforms_one.mpr ⟨value, heq, hv.congr ?_ hrequired⟩
      cases reduction <;> first | rfl | cases hidentity
    · obtain rfl := pure_eq_ok.mp ho
      refine joinStreams_always
        ((first :: rest).map fun single row => Row.Conforms [single.field] row) hcancel hu ?_
        fun slots hfit => ?_
      · rw [List.forall₂_map_left_iff, List.forall₂_map_right_iff, List.forall₂_same]
        exact fun single hs => (h single hs).1
      · have hvalues := List.forall₂_map_left_iff.mp hfit.values
        have hnumbers : ∀ row, some row ∈ slots →
            ∃ value, row = [value] ∧ value.dataType? = some first.field.dataType := by
          intro row hrow
          obtain ⟨single, hsingle, hconforms⟩ := exists_of_forall₂ hvalues.flip hrow
          obtain ⟨value, rfl, hvalue⟩ := conforms_one.mp (hconforms row rfl)
          exact ⟨value, rfl, htype single hsingle ▸
            hvalue.dataType_of_required (h single hsingle).2⟩
        have hsome : ∃ slot ∈ slots, slot ≠ none := by
          have hpresent := hfit.present 0 rfl
          cases hvalues with
          | @cons _ slot _ _ _ _ =>
            exact ⟨slot, List.mem_cons_self, fun hnone => hpresent (congrArg some hnone)⟩
        refine (hv _ _ slots htype hnumbers).of_ok fun row hrow => ?_
        obtain ⟨v, rfl, hvalue⟩ := Reduction.fold_dataType hsome hrow
        exact conforms_value hvalue

theorem reduce_cases {inputs : List (Except QueryError Rowset)} {out : Rowset}
    (ho : Rowset.reduce reduction grid template fallback inputs = .ok out) :
    out.rows = Stream.empty ∨ ∃ singles,
      List.Forall₂ (fun input single => ∃ rowset : Rowset, input = .ok rowset ∧
        rowset.alignSingle grid = .ok single) inputs singles ∧
      reduceAligned reduction template singles = .ok out := by
  unfold Rowset.reduce at ho
  split at ho
  · unfold reduceNothing at ho
    cases fallback with
    | none => cases ho
    | some expr =>
      simp only [bind_eq_ok, pure_eq_ok] at ho
      obtain ⟨compiled, -, rfl⟩ := ho
      exact .inl rfl
  · rw [bind_eq_ok] at ho
    obtain ⟨singles, hsingles, ho⟩ := ho
    exact .inr ⟨singles, alignInputs_eq_ok.mp hsingles, ho⟩

theorem Conforming.reduce {inputs : List (Except QueryError Rowset)} {out : Rowset}
    (h : ∀ rowset, .ok rowset ∈ inputs → rowset.Conforming)
    (ho : Rowset.reduce reduction grid template fallback inputs = .ok out) : out.Conforming := by
  rcases reduce_cases ho with hempty | ⟨singles, hsingles, ho⟩
  · rw [Conforming, hempty]
    exact Stream.always_empty
  · refine reduceAligned_always trivial (fun _ _ _ => trivial) (fun _ _ _ _ _ => .any)
      (fun single hs => ?_) ho
    obtain ⟨input, hinput, rowset, rfl, hsingle⟩ := exists_of_forall₂ hsingles.flip hs
    exact ⟨(h rowset hinput).alignSingle hsingle, (alignSingle_eq_ok hsingle).2.1⟩

end Rowset

end SeriesQuery
