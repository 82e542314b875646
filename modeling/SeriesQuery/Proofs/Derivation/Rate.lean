import SeriesQuery.Proofs.Derivation.Successive
import SeriesQuery.Proofs.Time.Elapsed

/-!
# Rates of change

A rate divides by the time elapsed between two samples, which is none within a
microsecond. There a series of rates ends, and only there: any other two
successive samples have a rate, also if the later one goes back in time.
-/

namespace SeriesQuery

/-- Less than a microsecond elapses between the instants, in either direction. -/
def Instant.Close (a b : Instant) : Prop := (nanosBetween a b).natAbs < 1000

instance (a b : Instant) : Decidable (a.Close b) :=
  inferInstanceAs (Decidable ((nanosBetween a b).natAbs < 1000))

def Value.number (value : Value) : Float := value.asDecimal?.getD 0

theorem DataType.toDecimal_eq_number {type : DataType} {value : Value}
    (hnumeric : type.isNumeric = true) (h : value.dataType? = some type) :
    type.toDecimal value = .ok value.number := by
  cases type <;> cases value <;> simp_all [isNumeric, Value.dataType?] <;> rfl

namespace Derivation

def rateBetween (before current : Sample Value) : Except EvalError Value :=
  if before.timestamp.Close current.timestamp then .error (.zeroTimeDelta current.timestamp)
  else .ok (.decimal ((current.value.number - before.value.number) /
    secondsBetween before.timestamp current.timestamp))

theorem rate_pairs {type : DataType} {samples : List (Sample Value)}
    (hnumeric : type.isNumeric = true) (h : ∀ s ∈ samples, s.value.dataType? = some type) :
    (rate type).Pairs rateBetween samples where
  first current hcurrent := by
    rw [rate, DataType.toDecimal_eq_number hnumeric (h current hcurrent)]
    rfl
  next before hbefore current hcurrent := by
    have hstart := DataType.toDecimal_eq_number hnumeric (h before hbefore)
    have hfinish := DataType.toDecimal_eq_number hnumeric (h current hcurrent)
    refine Prod.ext rfl ?_
    simp only [rate, hstart, hfinish, rateBetween]
    by_cases hclose : before.timestamp.Close current.timestamp
    · have hzero := secondsBetween_beq_zero_iff.mpr hclose
      simp only [hclose, hzero, if_true]
      rfl
    · have hzero := mt secondsBetween_beq_zero_iff.mp hclose
      simp only [hclose, hzero, if_false]
      rfl

end Derivation

namespace Rowset

variable {rowset : Rowset} {field : Field} {items : List (Sample Row)}

theorem rate_of_field (hfields : rowset.fields = [field])
    (hnumeric : field.dataType.isNumeric = true) (hrequired : field.required = true) :
    rowset.rate = .ok ⟨[{ field.retype .decimal true with unit := field.unit.map (· ++ "/s") }],
      rowset.derive (.rate field.dataType) ("rate(" ++ field.urn ++ ")")⟩ := by
  simp only [rate, bind_eq_ok, QueryError.compiling_eq_ok, numericField_eq_ok, pure_eq_ok]
  exact ⟨field, ⟨hfields, hnumeric, hrequired⟩, rfl⟩

theorem answerAt_close {pair : Sample Row × Sample Row}
    (h : pair.1.timestamp.Close pair.2.timestamp) :
    Derivation.answerAt stage pair.2.timestamp
        (Derivation.rateBetween pair.1.scalar pair.2.scalar) =
      .error (.eval (.context stage (.zeroTimeDelta pair.2.timestamp))) := by
  have hscalar : pair.1.scalar.timestamp.Close pair.2.scalar.timestamp := h
  rw [Derivation.rateBetween, if_pos hscalar]
  rfl

theorem answerAt_apart {pair : Sample Row × Sample Row}
    (h : ¬ pair.1.timestamp.Close pair.2.timestamp) :
    Derivation.answerAt stage pair.2.timestamp
        (Derivation.rateBetween pair.1.scalar pair.2.scalar) =
      .ok ⟨pair.2.timestamp, [.decimal ((pair.2.value.first.number - pair.1.value.first.number) /
        secondsBetween pair.1.timestamp pair.2.timestamp)]⟩ := by
  have hscalar : ¬ pair.1.scalar.timestamp.Close pair.2.scalar.timestamp := h
  rw [Derivation.rateBetween, if_neg hscalar]
  rfl

theorem getElem?_rates_error {pairs : List (Sample Row × Sample Row)} {i : Nat} {e : QueryError} :
    (untilError (pairs.map fun pair => Derivation.answerAt stage pair.2.timestamp
        (Derivation.rateBetween pair.1.scalar pair.2.scalar)))[i]? = some (.error e) ↔
      ∃ pair, pairs[i]? = some pair ∧ pair.1.timestamp.Close pair.2.timestamp ∧
        e = .eval (.context stage (.zeroTimeDelta pair.2.timestamp)) ∧
        ∀ j < i, ∀ earlier, pairs[j]? = some earlier →
          ¬ earlier.1.timestamp.Close earlier.2.timestamp := by
  rw [getElem?_untilError_error]
  simp only [List.getElem?_map, Option.map_eq_some_iff]
  constructor
  · rintro ⟨⟨pair, hpair, hanswer⟩, hbefore⟩
    by_cases hclose : pair.1.timestamp.Close pair.2.timestamp
    · rw [answerAt_close hclose] at hanswer
      refine ⟨pair, hpair, hclose, (Except.error.inj hanswer).symm, ?_⟩
      intro j hj earlier hearlier hclose'
      obtain ⟨_, _, hfound, hok⟩ := hbefore j hj
      obtain rfl := Option.some.inj (hearlier.symm.trans hfound)
      rw [answerAt_close hclose'] at hok
      cases hok
    · rw [answerAt_apart hclose] at hanswer
      cases hanswer
  · rintro ⟨pair, hpair, hclose, rfl, hearlier⟩
    refine ⟨⟨pair, hpair, answerAt_close hclose⟩, fun j hj => ?_⟩
    have hlength := (List.getElem?_eq_some_iff.mp hpair).1
    have hfound := List.getElem?_eq_getElem (show j < pairs.length by omega)
    exact ⟨_, _, hfound, answerAt_apart (hearlier j hj _ hfound)⟩

/-- The rates of a series end at the first sample within a microsecond of the one
before it, and with no other error. A series without such samples has a rate for
each of them but the first. -/
theorem rate_fails_iff_close (hfields : rowset.fields = [field])
    (hnumeric : field.dataType.isNumeric = true) (hrequired : field.required = true)
    (hanswers : rowset.rows.answers = items.map .ok)
    (hconforms : ∀ s ∈ items, s.value.Conforms [field]) :
    ∃ rated, rowset.rate = .ok rated ∧
      rated.fields = [{ field.retype .decimal true with unit := field.unit.map (· ++ "/s") }] ∧
      rated.rows.answers = untilError ((successive items).map fun pair =>
        Derivation.answerAt ("rate(" ++ field.urn ++ ")") pair.2.timestamp
          (Derivation.rateBetween pair.1.scalar pair.2.scalar)) ∧
      (∀ (i : Nat) e, rated.rows.answers[i]? = some (.error e) ↔
        ∃ pair, (successive items)[i]? = some pair ∧ pair.1.timestamp.Close pair.2.timestamp ∧
          e = .eval (.context ("rate(" ++ field.urn ++ ")") (.zeroTimeDelta pair.2.timestamp)) ∧
          ∀ j < i, ∀ earlier, (successive items)[j]? = some earlier →
            ¬ earlier.1.timestamp.Close earlier.2.timestamp) ∧
      ((∀ pair ∈ successive items, ¬ pair.1.timestamp.Close pair.2.timestamp) →
        ∃ rows : List (Sample Row), rated.rows.answers = rows.map .ok ∧
          rows.map (·.timestamp) = items.tail.map (·.timestamp)) := by
  have hpairs : (Derivation.rate field.dataType).Pairs Derivation.rateBetween
      (items.map Sample.scalar) :=
    Derivation.rate_pairs hnumeric (List.forall_mem_map.mpr fun s hs =>
      first_dataType (hconforms s hs) hrequired)
  have hrun : (rowset.derive (.rate field.dataType) ("rate(" ++ field.urn ++ ")")).answers =
      untilError ((successive items).map fun pair =>
        Derivation.answerAt ("rate(" ++ field.urn ++ ")") pair.2.timestamp
          (Derivation.rateBetween pair.1.scalar pair.2.scalar)) := by
    have hended : untilError rowset.rows.answers = ended items none := by
      rw [hanswers, untilError_map_ok, ended_none]
    rw [derive_answers_pairs hended hpairs, Option.toList_none, List.map_nil, List.append_nil]
  refine ⟨_, rate_of_field hfields hnumeric hrequired, rfl, hrun, fun i e => ?_, fun hapart => ?_⟩
  · rw [hrun]
    exact getElem?_rates_error
  · rw [hrun]
    refine ⟨(successive items).map fun pair => ⟨pair.2.timestamp, [.decimal
      ((pair.2.value.first.number - pair.1.value.first.number) /
        secondsBetween pair.1.timestamp pair.2.timestamp)]⟩, ?_, ?_⟩
    · rw [untilError_eq_map_ok, List.map_map]
      exact List.map_congr_left fun pair hpair => answerAt_apart (hapart pair hpair)
    · rw [List.map_map, ← map_snd_successive, List.map_map]
      rfl

def wholeCalendar : List (Sample Row) :=
  [⟨.ofNanos Instant.lastNanos, [.integer 1]⟩,
    ⟨.ofNanos Instant.firstNanos, [.integer 3]⟩,
    ⟨.ofNanos (Instant.firstNanos + 999), [.integer 4]⟩]

theorem wholeCalendar_fails_at_last :
    (∀ s ∈ wholeCalendar, s.value.Conforms [.plain "m" .integer true]) ∧
    ∃ rated, Rowset.rate ⟨[.plain "m" .integer true], .ofAnswers (wholeCalendar.map .ok)⟩ =
        .ok rated ∧
      rated.fields = [.plain "m" .decimal true] ∧
      rated.rows.answers[1]? = some (.error (.eval (.context "rate(m)"
        (.zeroTimeDelta (.ofNanos (Instant.firstNanos + 999)))))) := by
  have hconforms : ∀ s ∈ wholeCalendar, s.value.Conforms [.plain "m" .integer true] := by
    simp only [wholeCalendar, List.forall_mem_cons, List.not_mem_nil, false_implies, implies_true,
      and_true]
    exact ⟨conforms_value rfl, conforms_value rfl, conforms_value rfl⟩
  obtain ⟨rated, hrated, hfields, -, hfails, -⟩ :=
    @rate_fails_iff_close ⟨[.plain "m" .integer true], .ofAnswers (wholeCalendar.map .ok)⟩ _
      wholeCalendar rfl rfl rfl rfl hconforms
  refine ⟨hconforms, rated, hrated, hfields, (hfails 1 _).mpr ⟨_, rfl, by decide, rfl, ?_⟩⟩
  intro j hj earlier hearlier
  obtain rfl : j = 0 := by omega
  obtain rfl := Option.some.inj hearlier
  decide

/-- Instants a nanosecond apart differ, and have no rate. -/
theorem nanosecond_apart_fails :
    ∃ rated, Rowset.rate ⟨[.plain "m" .integer true], .ofAnswers
        [.ok ⟨.epoch, [.integer 1]⟩, .ok ⟨.ofNanos 1, [.integer 1]⟩]⟩ = .ok rated ∧
      Instant.epoch ≠ .ofNanos 1 ∧
      rated.rows.answers = [.error (.eval (.context "rate(m)"
        (.zeroTimeDelta (.ofNanos 1))))] := by
  refine ⟨_, rate_of_field rfl rfl rfl, by decide, ?_⟩
  rfl

end Rowset

end SeriesQuery
