import SeriesQuery.Proofs.Decimal.Sign
import SeriesQuery.Proofs.Derivation.Delta
import SeriesQuery.Proofs.Query.Typed

/-!
# Increments of counters

A counter of integers skips negative samples as if they were not there. Between
the others its increments are exact: the difference of two values that rise, and
of two that fall what is left of the maximum and the later value, or that value
alone if there is no maximum. Only a fall from above the maximum can have a
negative increment.
-/

namespace SeriesQuery

/-- The samples of a series that are not negative. -/
def counted (points : List (Sample Int64)) : List (Sample Int64) :=
  points.filter fun point => 0 ≤ point.value.toInt

theorem mem_counted {points : List (Sample Int64)} {point : Sample Int64} :
    point ∈ counted points ↔ point ∈ points ∧ 0 ≤ point.value.toInt := by
  rw [counted, List.mem_filter, decide_eq_true_eq]

theorem nonneg_of_mem_successive {points : List (Sample Int64)}
    {pair : Sample Int64 × Sample Int64} (h : pair ∈ successive (counted points)) :
    0 ≤ pair.1.value.toInt ∧ 0 ≤ pair.2.value.toInt :=
  (mem_of_mem_successive h).imp (fun hbefore => (mem_counted.mp hbefore).2)
    fun hcurrent => (mem_counted.mp hcurrent).2

def exactIncrement (limit : Option Int64) (before current : Int64) : Int :=
  if before.toInt ≤ current.toInt then current.toInt - before.toInt
  else match limit with
    | none => current.toInt
    | some maximum => maximum.toInt - before.toInt + current.toInt

/-- The step that leaves 64 bits when an increment is computed. -/
def incrementFault (limit : Option Int64) (before current : Int64) : Option EvalError :=
  if before.toInt ≤ current.toInt then none
  else match limit with
    | none => none
    | some maximum =>
      if ¬ FitsInteger (maximum.toInt - before.toInt) then some (.overflow "delta")
      else if ¬ FitsInteger (maximum.toInt - before.toInt + current.toInt) then
        some (.overflow "counter wrap")
      else none

/-- The counter falls, and its maximum and the later value add up to less than the
earlier one. -/
def FallsBeyond (maximum : Option Value) (before current : Int64) : Prop :=
  current.toInt < before.toInt ∧
    ∃ m, maximum = some (.integer m) ∧ m.toInt + current.toInt < before.toInt

namespace Derivation

theorem isNegative_integer (value : Int64) :
    isNegative .integer (.integer value) = .ok (decide (value.toInt < 0)) := by
  have hfits := fits_toInt value
  rw [FitsInteger, lowestInteger, highestInteger] at hfits
  have hiff : Float.ofInt value.toInt < 0 ↔ value.toInt < 0 :=
    Decimal.ofInt_lt_zero_iff (by omega) (by omega)
  simp only [isNegative, DataType.toDecimal, ← decide_eq_decide.mpr hiff]
  rfl

theorem isLess_integers (a b : Int64) :
    isLess .integer (.integer a) (.integer b) = .ok (decide (a.toInt < b.toInt)) := by
  rw [isLess, decide_eq_decide.mpr Int64.lt_iff_toInt_lt]

theorem counterDelta_negative {point : Sample Int64} (h : point.value.toInt < 0)
    (maximum : Option Value) (kept : Option (Sample Value)) :
    counterDelta .integer maximum kept point.ofInteger.scalar = (kept, .ok none) := by
  simp only [counterDelta, Sample.scalar_ofInteger, isNegative_integer, h, decide_true]

theorem counterDelta_counted {point : Sample Int64} (h : 0 ≤ point.value.toInt)
    (maximum : Option Value) (kept : Option (Sample Value)) :
    counterDelta .integer maximum kept point.ofInteger.scalar =
      (some point.ofInteger.scalar, match kept with
        | none => .ok none
        | some before =>
          (increment .integer maximum (.integer point.value) before.value).map some) := by
  cases kept <;>
    simp only [counterDelta, Sample.scalar_ofInteger, isNegative_integer, Int.not_lt.mpr h,
      decide_false]

theorem counterDelta_pairs (maximum : Option Value) (points : List (Sample Int64)) :
    (counterDelta .integer maximum).Pairs
      (fun before current => increment .integer maximum current.value before.value)
      (((counted points).map Sample.ofInteger).map .scalar) := by
  have hcounted : ∀ s ∈ ((counted points).map Sample.ofInteger).map Sample.scalar,
      ∃ point : Sample Int64, s = point.ofInteger.scalar ∧ 0 ≤ point.value.toInt := by
    intro s hs
    rw [List.map_map] at hs
    obtain ⟨point, hpoint, rfl⟩ := List.mem_map.mp hs
    exact ⟨point, rfl, (mem_counted.mp hpoint).2⟩
  constructor
  · intro current hcurrent
    obtain ⟨point, rfl, hpoint⟩ := hcounted current hcurrent
    exact counterDelta_counted hpoint maximum none
  · intro before _ current hcurrent
    obtain ⟨point, rfl, hpoint⟩ := hcounted current hcurrent
    exact counterDelta_counted hpoint maximum (some before)

theorem fits_difference {before current : Int64} (hbefore : 0 ≤ before.toInt)
    (h : before.toInt ≤ current.toInt) : FitsInteger (current.toInt - before.toInt) := by
  have hfits := fits_toInt current
  simp only [FitsInteger, lowestInteger] at hfits ⊢
  omega

theorem wrapped_integers (maximum : Int64) {before current : Int64} :
    wrapped .integer (.integer maximum) (.integer current) (.integer before) =
      if ¬ FitsInteger (maximum.toInt - before.toInt) then .error (.overflow "delta")
      else if ¬ FitsInteger (maximum.toInt - before.toInt + current.toInt) then
        .error (.overflow "counter wrap")
      else .ok (.integer (.ofInt (maximum.toInt - before.toInt + current.toInt))) := by
  by_cases hroom : FitsInteger (maximum.toInt - before.toInt)
  · rw [wrapped, subtract_integers_of_fits hroom, if_neg (not_not_intro hroom)]
    have hheadroom := toInt_of_integer? (if_pos hroom)
    by_cases hsum : FitsInteger (maximum.toInt - before.toInt + current.toInt)
    · simp only [bind, Except.bind, hheadroom, integer?, if_pos hsum, if_neg (not_not_intro hsum)]
      rfl
    · simp only [bind, Except.bind, hheadroom, integer?, if_neg hsum, if_pos hsum]
      rfl
  · rw [wrapped, subtract_integers_of_not_fits hroom, if_pos hroom]
    rfl

theorem increment_rise (maximum : Option Value) {before current : Int64}
    (hbefore : 0 ≤ before.toInt) (h : before.toInt ≤ current.toInt) :
    increment .integer maximum (.integer current) (.integer before) =
      .ok (.integer (.ofInt (current.toInt - before.toInt))) := by
  simp only [increment, isLess_integers, Int.not_lt.mpr h, decide_false]
  exact @subtract_integers_of_fits .integer _ _ (fits_difference hbefore h)

theorem increment_fall {maximum : Option Value} {before current : Int64}
    (h : current.toInt < before.toInt) :
    increment .integer maximum (.integer current) (.integer before) =
      match maximum with
      | some maximum => wrapped .integer maximum (.integer current) (.integer before)
      | none => .ok (.integer current) := by
  simp only [increment, isLess_integers, h, decide_true]
  cases maximum with
  | none => rfl
  | some maximum => rfl

theorem increment_integers (limit : Option Int64) {before current : Int64}
    (hbefore : 0 ≤ before.toInt) :
    increment .integer (limit.map .integer) (.integer current) (.integer before) =
      (incrementFault limit before current).elim
        (.ok (.integer (.ofInt (exactIncrement limit before current)))) .error := by
  by_cases hle : before.toInt ≤ current.toInt
  · simp only [increment_rise _ hbefore hle, incrementFault, exactIncrement, if_pos hle,
      Option.elim]
  rw [increment_fall (Int.not_le.mp hle)]
  cases limit with
  | none => simp only [Option.map_none, incrementFault, exactIncrement, if_neg hle, Option.elim,
      Int64.ofInt_toInt]
  | some maximum =>
    simp only [Option.map_some, wrapped_integers, incrementFault, exactIncrement, if_neg hle]
    split
    · rfl
    · split <;> rfl

theorem exactIncrement_fits {limit : Option Int64} {before current : Int64}
    (hbefore : 0 ≤ before.toInt) (h : incrementFault limit before current = none) :
    FitsInteger (exactIncrement limit before current) := by
  unfold incrementFault at h
  unfold exactIncrement
  split at h
  · next hle =>
    rw [if_pos hle]
    exact fits_difference hbefore hle
  · next hfall =>
    rw [if_neg hfall]
    cases limit with
    | none => exact fits_toInt current
    | some maximum =>
      by_contra hsum
      simp only [hsum, not_false_eq_true, if_true] at h
      split at h <;> cases h

theorem exactIncrement_neg_iff {limit : Option Int64} {before current : Int64}
    (hcurrent : 0 ≤ current.toInt) :
    exactIncrement limit before current < 0 ↔
      FallsBeyond (limit.map .integer) before current := by
  unfold exactIncrement FallsBeyond
  split
  · next hle => omega
  · next hfall =>
    cases limit with
    | none => simp [Int.not_lt.mpr hcurrent]
    | some maximum =>
      simp only [Option.map_some, Option.some.injEq, Value.integer.injEq, exists_eq_left']
      omega

theorem increment_eq_ok {maximum : Option Value} {before current : Int64}
    (hmaximum : maximum = some .null ∨ ∃ limit : Option Int64, maximum = limit.map .integer)
    (hbefore : 0 ≤ before.toInt) (hcurrent : 0 ≤ current.toInt)
    (h : increment .integer maximum (.integer current) (.integer before) = .ok value) :
    ∃ number : Int64, value = .integer number ∧
      (number.toInt < 0 ↔ FallsBeyond maximum before current) := by
  obtain rfl | ⟨limit, rfl⟩ := hmaximum
  · by_cases hle : before.toInt ≤ current.toInt
    · rw [increment_rise _ hbefore hle] at h
      cases h
      refine ⟨_, rfl, ?_⟩
      rw [toInt_of_integer? (if_pos (fits_difference hbefore hle)), FallsBeyond]
      omega
    · rw [increment_fall (Int.not_le.mp hle)] at h
      cases h
  · rw [increment_integers limit hbefore] at h
    cases hfault : incrementFault limit before current with
    | some e =>
      rw [hfault] at h
      cases h
    | none =>
      rw [hfault] at h
      cases h
      refine ⟨_, rfl, ?_⟩
      rw [toInt_of_integer? (if_pos (exactIncrement_fits hbefore hfault))]
      exact exactIncrement_neg_iff hcurrent

end Derivation

namespace Rowset

variable {rowset : Rowset} {field : Field} {maximum accepted : Option Value}
  {items : List (Sample Row)} {points : List (Sample Int64)} {failure : Option QueryError}

theorem counterMaximum_cases (htype : field.dataType = .integer)
    (h : counterMaximum field maximum = .ok accepted) :
    (maximum = some .null ∧ accepted = some .null) ∨
      ∃ limit : Option Int64, accepted = limit.map .integer := by
  by_cases hnull : maximum = some .null
  · subst hnull
    rw [counterMaximum, htype] at h
    exact .inl ⟨rfl, (Except.ok.inj h).symm⟩
  · cases accepted with
    | none => exact .inr ⟨none, rfl⟩
    | some value =>
      obtain ⟨limit, rfl⟩ := Value.eq_integer_of_dataType
        ((counterMaximum_dataType h hnull value rfl).trans (congrArg some htype))
      exact .inr ⟨some limit, rfl⟩

theorem counterDelta_of_field (hfields : rowset.fields = [field])
    (hnumeric : field.dataType.isNumeric = true) (hrequired : field.required = true)
    (haccepted : counterMaximum field maximum = .ok accepted) :
    rowset.counterDelta maximum = .ok ⟨[field], rowset.derive
      (.counterDelta field.dataType accepted) ("counter_delta(" ++ field.urn ++ ")")⟩ := by
  simp only [counterDelta, bind_eq_ok, QueryError.compiling_eq_ok, numericField_eq_ok, pure_eq_ok]
  exact ⟨field, ⟨hfields, hnumeric, hrequired⟩, accepted, haccepted, rfl⟩

theorem derive_counterDelta_counted {pruned : Rowset}
    (hanswers : untilError rowset.rows.answers = ended (points.map .ofInteger) failure)
    (hpruned : untilError pruned.rows.answers = ended ((counted points).map .ofInteger) failure) :
    pruned.derive (.counterDelta .integer accepted) stage =
      rowset.derive (.counterDelta .integer accepted) stage := by
  have hskip : ∀ point ∈ points, decide (0 ≤ point.value.toInt) = false → ∀ kept,
      Derivation.step (.counterDelta .integer accepted) stage kept point.ofInteger =
        (kept, none) := by
    intro point _ hnegative kept
    rw [Derivation.step, Derivation.counterDelta_negative
      (Int.not_le.mp (of_decide_eq_false hnegative))]
  refine Stream.guard_congr ?_
  rw [Stream.answers_transduce, Stream.answers_transduce, ← untilError_transduced_untilError,
    hpruned, transduced_ended, counted, transduced_filter hskip, ← transduced_ended, ← hanswers,
    untilError_transduced_untilError]

theorem getElem?_derive_counterDelta
    (hmaximum : accepted = some .null ∨ ∃ limit : Option Int64, accepted = limit.map .integer)
    (hanswers : untilError rowset.rows.answers = ended (points.map .ofInteger) failure)
    {i : Nat} {row : Sample Row}
    (h : (rowset.derive (.counterDelta .integer accepted) stage).answers[i]? = some (.ok row)) :
    ∃ before current increment, (successive (counted points))[i]? = some (before, current) ∧
      row = .ofInteger ⟨current.timestamp, increment⟩ ∧
      (increment.toInt < 0 ↔ FallsBeyond accepted before.value current.value) := by
  have hcounted := @untilError_ofIntegers rowset.fields (counted points) failure
  rw [← derive_counterDelta_counted hanswers hcounted,
    derive_answers_pairs hcounted (Derivation.counterDelta_pairs accepted points)] at h
  have hanswer := getElem?_of_untilError_append h
  rw [successive_map, List.map_map, List.getElem?_map, Option.map_eq_some_iff] at hanswer
  obtain ⟨⟨before, current⟩, hpair, hanswer⟩ := hanswer
  obtain ⟨hbefore, hcurrent⟩ := nonneg_of_mem_successive (List.mem_of_getElem? hpair)
  change Derivation.answerAt stage current.timestamp (Derivation.increment .integer accepted
    (.integer current.value) (.integer before.value)) = .ok row at hanswer
  cases hvalue : Derivation.increment .integer accepted (.integer current.value)
    (.integer before.value) with
  | error e =>
    rw [hvalue] at hanswer
    cases hanswer
  | ok value =>
    rw [hvalue] at hanswer
    cases hanswer
    obtain ⟨increment, rfl, hnegative⟩ :=
      Derivation.increment_eq_ok hmaximum hbefore hcurrent hvalue
    exact ⟨before, current, increment, hpair, rfl, hnegative⟩

/-- The increments of a counter of integers are those of its samples that are not
negative: without the others it has the same answers. They are exact, each at the
later sample, up to the first one whose computation leaves 64 bits. -/
theorem counterDelta_answers_increments (hfields : rowset.fields = [field])
    (htype : field.dataType = .integer) (hrequired : field.required = true)
    (haccepted : counterMaximum field maximum = .ok accepted) (hnull : maximum ≠ some .null)
    (hanswers : untilError rowset.rows.answers = ended items failure)
    (hconforms : ∀ s ∈ items, s.value.Conforms [field]) :
    ∃ (points : List (Sample Int64)) (limit : Option Int64) (derived : Rowset)
      (emitted : List (Sample Int64)),
      items = points.map .ofInteger ∧ accepted = limit.map .integer ∧
      rowset.counterDelta maximum = .ok derived ∧ derived.fields = [field] ∧
      (∀ pruned : Rowset, pruned.fields = [field] →
        untilError pruned.rows.answers = ended ((counted points).map .ofInteger) failure →
        pruned.counterDelta maximum = .ok derived) ∧
      derived.rows.answers = ended (emitted.map .ofInteger)
        ((((successive (counted points)).findSome? fun pair =>
          incrementFault limit pair.1.value pair.2.value).map fun e =>
            .eval (.context ("counter_delta(" ++ field.urn ++ ")") e)).or failure) ∧
      emitted.map Sample.exact =
        ((successive (counted points)).takeWhile fun pair =>
          (incrementFault limit pair.1.value pair.2.value).isNone).map fun pair =>
            ⟨pair.2.timestamp, exactIncrement limit pair.1.value pair.2.value⟩ := by
  obtain ⟨points, rfl⟩ := exists_map_ofInteger htype hrequired hconforms
  obtain ⟨h, -⟩ | ⟨limit, rfl⟩ := counterMaximum_cases htype haccepted
  · exact absurd h hnull
  have hnumeric : field.dataType.isNumeric = true := by rw [htype]; rfl
  have hderived {pruned : Rowset} (hpruned : pruned.fields = [field]) :=
    counterDelta_of_field hpruned hnumeric hrequired haccepted
  have hcounted := @untilError_ofIntegers rowset.fields (counted points) failure
  obtain ⟨emitted, hrun, hemitted⟩ := derive_answers_integers (exactIncrement limit) hcounted
    (Derivation.counterDelta_pairs (limit.map .integer) points)
    (fun pair hpair => Derivation.increment_integers limit (nonneg_of_mem_successive hpair).1)
    (fun pair hpair => Derivation.exactIncrement_fits (nonneg_of_mem_successive hpair).1)
  refine ⟨points, limit, _, emitted, rfl, rfl, hderived hfields, rfl, ?_, ?_, hemitted⟩
  · intro other hother hrows
    rw [hderived hother, htype, derive_counterDelta_counted hanswers hrows]
  · rw [htype, ← derive_counterDelta_counted hanswers hcounted]
    exact hrun

def rollover : List (Sample Int64) :=
  [⟨.epoch, -7⟩, ⟨.ofNanos 5, 250⟩, ⟨.ofNanos 6, -3⟩,
    ⟨.ofNanos 7, 10⟩]

theorem rollover_conforms :
    ∀ s ∈ rollover.map Sample.ofInteger, s.value.Conforms [.plain "m" .integer true] := by
  intro s hs
  obtain ⟨point, -, rfl⟩ := List.mem_map.mp hs
  exact conforms_value rfl

theorem rollover_maximum :
    counterMaximum (.plain "m" .integer true) (some (.decimal 255)) =
      .ok (some (.integer 255)) := rfl

theorem rollover_answers_increments :
    counterMaximum (.plain "m" .integer true) (some (.decimal 255)) = .ok (some (.integer 255)) ∧
    (∀ s ∈ rollover.map Sample.ofInteger, s.value.Conforms [.plain "m" .integer true]) ∧
    ∃ derived,
      (ofIntegers [.plain "m" .integer true] rollover none).counterDelta (some (.decimal 255)) =
        .ok derived ∧
      derived.rows.answers = [.ok ⟨.ofNanos 7, [.integer 15]⟩] ∧
      (ofIntegers [.plain "m" .integer true] (counted rollover) none).counterDelta
        (some (.decimal 255)) = .ok derived := by
  obtain ⟨points, _, derived, _, hpoints, -, hderived, -, hpruned, -, -⟩ :=
    @counterDelta_answers_increments (ofIntegers [.plain "m" .integer true] rollover none) _ _ _ _
      none rfl rfl rfl rollover_maximum (by simp) untilError_ofIntegers rollover_conforms
  obtain rfl := Sample.map_ofInteger_inj.mp hpoints
  refine ⟨rollover_maximum, rollover_conforms, derived, hderived, ?_,
    hpruned _ rfl untilError_ofIntegers⟩
  obtain rfl := Except.ok.inj
    ((counterDelta_of_field rfl rfl rfl rollover_maximum).symm.trans hderived)
  rfl

/-- An increment is negative if and only if the counter falls from so far above its
maximum that the maximum and the later value do not make up for it. A counter that
never is above its maximum has no negative increment. -/
theorem counterDelta_negative_iff (hfields : rowset.fields = [field])
    (htype : field.dataType = .integer) (hrequired : field.required = true)
    (haccepted : counterMaximum field maximum = .ok accepted)
    (hanswers : untilError rowset.rows.answers = ended items failure)
    (hconforms : ∀ s ∈ items, s.value.Conforms [field]) :
    ∃ (points : List (Sample Int64)) (derived : Rowset),
      items = points.map .ofInteger ∧ rowset.counterDelta maximum = .ok derived ∧
      (∀ (i : Nat) row, derived.rows.answers[i]? = some (.ok row) →
        ∃ before current increment, (successive (counted points))[i]? = some (before, current) ∧
          row = .ofInteger ⟨current.timestamp, increment⟩ ∧
          (increment.toInt < 0 ↔ FallsBeyond accepted before.value current.value)) ∧
      ((∀ m, accepted = some (.integer m) → ∀ point ∈ points, point.value.toInt ≤ m.toInt) →
        ∀ row, .ok row ∈ derived.rows.answers →
          ∃ point : Sample Int64, row = point.ofInteger ∧ 0 ≤ point.value.toInt) := by
  obtain ⟨points, rfl⟩ := exists_map_ofInteger htype hrequired hconforms
  have hnumeric : field.dataType.isNumeric = true := by rw [htype]; rfl
  have hmaximum := (counterMaximum_cases htype haccepted).imp_left And.right
  refine ⟨points, _, rfl, counterDelta_of_field hfields hnumeric hrequired haccepted, ?_, ?_⟩
  · rw [htype]
    intro i row hrow
    exact getElem?_derive_counterDelta hmaximum hanswers hrow
  · rw [htype]
    intro hbelow row hrow
    obtain ⟨i, hi⟩ := List.getElem?_of_mem hrow
    obtain ⟨before, current, increment, hpair, rfl, hnegative⟩ :=
      getElem?_derive_counterDelta hmaximum hanswers hi
    refine ⟨_, rfl, Int.not_lt.mp fun hlt => ?_⟩
    obtain ⟨-, m, hm, hfall⟩ := hnegative.mp hlt
    have hmem : before ∈ counted points ∧ current ∈ counted points :=
      mem_of_mem_successive (List.mem_of_getElem? hpair)
    have hbefore := hbelow m hm before (mem_counted.mp hmem.1).1
    have hcurrent := (mem_counted.mp hmem.2).2
    omega

theorem rollover_not_negative :
    counterMaximum (.plain "m" .integer true) (some (.decimal 255)) = .ok (some (.integer 255)) ∧
    (∀ s ∈ rollover.map Sample.ofInteger, s.value.Conforms [.plain "m" .integer true]) ∧
    ∃ derived,
      (ofIntegers [.plain "m" .integer true] rollover none).counterDelta (some (.decimal 255)) =
        .ok derived ∧
      ∀ row, .ok row ∈ derived.rows.answers →
        ∃ point : Sample Int64, row = point.ofInteger ∧ 0 ≤ point.value.toInt := by
  obtain ⟨points, derived, hpoints, hderived, -, hbelow⟩ :=
    @counterDelta_negative_iff (ofIntegers [.plain "m" .integer true] rollover none) _ _ _ _ none
      rfl rfl rfl rollover_maximum untilError_ofIntegers rollover_conforms
  obtain rfl := Sample.map_ofInteger_inj.mp hpoints
  refine ⟨rollover_maximum, rollover_conforms, derived, hderived, hbelow fun m hm => ?_⟩
  cases hm
  decide

/-- A fall from above the maximum has a negative increment. -/
theorem fall_from_above_negative :
    ∃ derived, Rowset.counterDelta (some (.integer 255)) ⟨[.plain "m" .integer true], .ofAnswers
        [.ok ⟨.epoch, [.integer 300]⟩, .ok ⟨.ofNanos 1, [.integer 10]⟩]⟩ =
          .ok derived ∧
      derived.rows.answers = [.ok ⟨.ofNanos 1, [.integer (-35)]⟩] ∧
      (-35 : Int64).toInt < 0 :=
  ⟨_, counterDelta_of_field rfl rfl rfl rfl, rfl, by decide⟩

end Rowset

end SeriesQuery
