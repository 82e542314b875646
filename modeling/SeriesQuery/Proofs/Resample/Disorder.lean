import Mathlib.Data.List.Chain
import SeriesQuery.Proofs.Resample.Align

/-!
# Alignments of series out of order

An alignment learns that a series went back in time when the start of the bucket
is not between the last sample and the current one. So a return to an earlier
bucket is an error, unless the sample lies on the start of its bucket: such a
sample is answered as it is, behind later ones. Up to a return of that kind the
answers go forward, whatever the order of the series.
-/

namespace SeriesQuery

/-- The second of two samples lies in an earlier bucket than the first. -/
def Grid.Returns (grid : Grid) (previous current : Sample Row) : Prop :=
  ∃ b c, grid.align previous.timestamp = some b ∧ grid.align current.timestamp = some c ∧ c < b

/-- If a series returns to an earlier bucket, the sample of its first return is not
on the start of that bucket. -/
def Grid.FirstReturnOffStart (grid : Grid) (items : List (Sample Row)) : Prop :=
  ∀ front previous current back, items = front ++ previous :: current :: back →
    (front ++ [previous]).IsChain (¬ grid.Returns · ·) → grid.Returns previous current →
    grid.align current.timestamp ≠ some current.timestamp

namespace Grid.FirstReturnOffStart

variable {grid : Grid} {previous current : Sample Row} {items : List (Sample Row)}

theorem of_isChain (h : items.IsChain fun previous current =>
    grid.Returns previous current → grid.align current.timestamp ≠ some current.timestamp) :
    grid.FirstReturnOffStart items := by
  intro front previous current back hsplit _
  exact List.isChain_iff_forall_rel_of_append_cons_cons.mp h hsplit

theorem head (h : grid.FirstReturnOffStart (previous :: current :: items))
    (hreturn : grid.Returns previous current) :
    grid.align current.timestamp ≠ some current.timestamp :=
  h [] previous current items rfl (.singleton _) hreturn

theorem tail (h : grid.FirstReturnOffStart (previous :: current :: items))
    (hforward : ¬ grid.Returns previous current) :
    grid.FirstReturnOffStart (current :: items) := by
  intro front p c back hsplit hchain
  refine h (previous :: front) p c back (congrArg (previous :: ·) hsplit) ?_
  obtain ⟨path, hpath⟩ : ∃ path, front ++ [p] = current :: path := by
    cases front <;> simp_all
  rw [List.cons_append, hpath]
  exact List.isChain_cons_cons.mpr ⟨hforward, hpath ▸ hchain⟩

end Grid.FirstReturnOffStart

/-- A return of a series, if all samples before it lie in buckets, ends a run with
an evaluation error. -/
def Grid.ReturnsFail (grid : Grid) (items : List (Sample Row)) (ending : Option QueryError) :
    Prop :=
  ∀ front previous current back, items = front ++ previous :: current :: back →
    grid.Returns previous current → (∀ s ∈ front, grid.align s.timestamp ≠ none) →
    ∃ fault, ending = some (.eval fault)

namespace Grid.ReturnsFail

variable {grid : Grid} {previous current : Sample Row} {items : List (Sample Row)}
  {ending : Option QueryError}

theorem empty : grid.ReturnsFail [] ending := by
  intro front _ _ _ hsplit
  simp at hsplit

theorem single : grid.ReturnsFail [previous] ending := by
  intro front _ _ _ hsplit
  cases front <;> simp at hsplit

theorem of_align_eq_none (hc : grid.align current.timestamp = none) :
    grid.ReturnsFail (current :: items) ending := by
  rintro (_ | ⟨_, front⟩) p c back hsplit ⟨_, _, hp, -⟩ hfront <;> simp_all

theorem eval (fault : EvalError) : grid.ReturnsFail items (some (.eval fault)) :=
  fun _ _ _ _ _ _ _ => ⟨fault, rfl⟩

theorem cons (h : grid.ReturnsFail (current :: items) ending)
    (hforward : ¬ grid.Returns previous current) :
    grid.ReturnsFail (previous :: current :: items) ending := by
  rintro (_ | ⟨_, front⟩) p c back hsplit hreturn hfront
  · obtain ⟨rfl, hrest⟩ := List.cons.inj hsplit
    obtain ⟨rfl, -⟩ := List.cons.inj hrest
    exact absurd hreturn hforward
  · exact h front p c back (List.cons.inj hsplit).2 hreturn fun s hs =>
      hfront s (List.mem_cons_of_mem _ hs)

end Grid.ReturnsFail

namespace Alignment

variable {grid : Grid} {type : DataType} {stage : String} {previous current : Sample Row}
  {answers : List (Except QueryError (Sample Row))} {items : List (Sample Row)}
  {failure : Option QueryError}

theorem step_return (hf : grid.Floors) (hb : grid.align previous.timestamp = some b)
    (hc : grid.align current.timestamp = some c) (hback : c < b) :
    step grid type stage ⟨some b, some previous⟩ current =
      (⟨some c, some current⟩, some <|
        if current.timestamp = c then .ok current
        else .error (.eval (.context stage
          (.interpolationOutOfBounds c previous.timestamp current.timestamp)))) := by
  have hne : b ≠ c := fun heq => absurd (heq ▸ hback) Std.lt_irrefl
  have hoff : c < previous.timestamp := Std.lt_of_lt_of_le hback (hf.start_le hb)
  simp only [step, hc, Option.some.injEq, hne, if_false, bucketSample]
  split
  · rfl
  · simp [interpolate, Sample.scalar, hoff, EvalError.within, QueryError.evaluating,
      bind, Except.bind, throw, throwThe, MonadExceptOf.throw, Except.map]

theorem untilError_transduced_behind (type : DataType) (stage : String) (hf : grid.Floors)
    (hanswers : untilError answers = ended items failure)
    (hb : grid.align previous.timestamp = some b)
    (hoff : grid.FirstReturnOffStart (previous :: items)) :
    ∃ out ending,
      untilError (transduced (step grid type stage) ⟨some b, some previous⟩ answers) =
        ended out ending ∧
      (b :: out.map (·.timestamp)).Pairwise (· < ·) ∧
      grid.ReturnsFail (previous :: items) ending := by
  induction answers generalizing previous b items with
  | nil =>
    obtain ⟨rfl, rfl⟩ := nil_eq_ended.mp hanswers
    exact ⟨[], none, rfl, List.pairwise_singleton _ _, .single⟩
  | cons answer rest ih =>
    cases answer with
    | error e =>
      obtain ⟨rfl, rfl, -⟩ := error_cons_eq_ended.mp hanswers
      exact ⟨[], some e, rfl, List.pairwise_singleton _ _, .single⟩
    | ok current =>
      obtain ⟨items, rfl, hrest⟩ := ok_cons_eq_ended.mp hanswers
      cases hc : grid.align current.timestamp with
      | none =>
        refine ⟨[], some .outOfCalendar, by simp [transduced, step, hc, untilError, ended],
          List.pairwise_singleton _ _, (Grid.ReturnsFail.of_align_eq_none hc).cons ?_⟩
        rintro ⟨_, _, -, hc', -⟩
        simp [hc] at hc'
      | some c =>
        by_cases hback : c < b
        · have hreturn : grid.Returns previous current := ⟨b, c, hb, hc, hback⟩
          have hstart : current.timestamp ≠ c := fun heq => hoff.head hreturn (heq ▸ hc)
          exact ⟨[], some (.eval (.context stage
              (.interpolationOutOfBounds c previous.timestamp current.timestamp))),
            by simp [transduced, step_return hf hb hc hback, hstart, untilError, ended],
            List.pairwise_singleton _ _, .eval _⟩
        have hforward : ¬ grid.Returns previous current := by
          rintro ⟨b', c', hb', hc', hback'⟩
          obtain rfl := Option.some.inj (hb.symm.trans hb')
          obtain rfl := Option.some.inj (hc.symm.trans hc')
          exact hback hback'
        obtain ⟨out, ending, hout, hascending, hends⟩ := ih hrest hc (hoff.tail hforward)
        by_cases hsame : b = c
        · subst hsame
          exact ⟨out, ending, by simp [transduced, step, hc, hout], hascending,
            hends.cons hforward⟩
        have hlt : b < c := by grind
        cases hsample : bucketSample type stage (some previous) c current with
        | error fault =>
          exact ⟨[], some (.eval fault), by
            simp [transduced, step, hc, hsame, hsample, QueryError.evaluating, untilError, ended],
            List.pairwise_singleton _ _, .eval fault⟩
        | ok sample =>
          refine ⟨sample :: out, ending, by
            simp [transduced, step, hc, hsame, hsample, QueryError.evaluating, untilError, hout],
            ?_, hends.cons hforward⟩
          rw [List.map_cons, bucketSample_timestamp hsample]
          refine List.pairwise_cons.mpr ⟨List.forall_mem_cons.mpr ⟨hlt, fun t ht => ?_⟩, hascending⟩
          exact Std.lt_trans hlt (List.rel_of_pairwise_cons hascending ht)

theorem untilError_transduced_initial (type : DataType) (stage : String) (hf : grid.Floors)
    (hanswers : untilError answers = ended items failure) (hoff : grid.FirstReturnOffStart items) :
    ∃ out ending,
      untilError (transduced (step grid type stage) initial answers) = ended out ending ∧
      (out.map (·.timestamp)).Pairwise (· < ·) ∧ grid.ReturnsFail items ending := by
  cases answers with
  | nil =>
    obtain ⟨rfl, rfl⟩ := nil_eq_ended.mp hanswers
    exact ⟨[], none, rfl, .nil, .empty⟩
  | cons answer rest =>
    cases answer with
    | error e =>
      obtain ⟨rfl, rfl, -⟩ := error_cons_eq_ended.mp hanswers
      exact ⟨[], some e, rfl, .nil, .empty⟩
    | ok first =>
      obtain ⟨items, rfl, hrest⟩ := ok_cons_eq_ended.mp hanswers
      cases hb : grid.align first.timestamp with
      | none =>
        exact ⟨[], some .outOfCalendar, by simp [transduced, step, hb, untilError, ended], .nil,
          .of_align_eq_none hb⟩
      | some b =>
        obtain ⟨out, ending, hout, hascending, hends⟩ :=
          untilError_transduced_behind type stage hf hrest hb hoff
        exact ⟨⟨b, [first.value.first]⟩ :: out, ending, by
          simp [transduced, step_initial hb, untilError, hout], hascending, hends⟩

end Alignment

namespace Rowset

variable {rowset : Rowset} {field : Field} {items : List (Sample Row)}
  {failure : Option QueryError}

/-- If the first return of a series does not lie on the start of its bucket, the
answers of an alignment go forward and a return ends them. -/
theorem align_ascends_off_starts (period : Period) (hfields : rowset.fields = [field])
    (hnumeric : field.dataType.isNumeric = true) (hrequired : field.required = true)
    (hanswers : untilError rowset.rows.answers = ended items failure)
    (hoff : period.grid.FirstReturnOffStart items) :
    ∃ aligned out ending, rowset.align period.grid = .ok aligned ∧
      aligned.rows.answers = ended out ending ∧
      (out.map (·.timestamp)).Pairwise (· < ·) ∧ period.grid.ReturnsFail items ending := by
  obtain ⟨out, ending, hout, hascending, hends⟩ :=
    Alignment.untilError_transduced_initial field.dataType ("align(" ++ field.urn ++ ")")
      period.floors hanswers hoff
  refine ⟨_, out, ending, align_eq_ok period.grid hfields hnumeric hrequired, ?_, hascending,
    hends⟩
  rw [Stream.answers_guard, Stream.answers_transduce, hout]

def atSecond (second : Fin 1000) (value : Int64) : Sample Row :=
  ⟨.ofNanos (second.val * 1000000000) (by simp only [Instant.firstNanos]; omega)
    (by simp only [Instant.lastNanos]; omega), [.integer value]⟩

def returning (second : Fin 1000) : List (Sample Row) := [atSecond 130 1, atSecond second 2]

theorem returning_ascends_off_starts :
    ∃ period, (PeriodSpec.fixed 60 0).build = .ok period ∧
      period.grid.FirstReturnOffStart (returning 70) ∧
      period.grid.Returns (atSecond 130 1) (atSecond 70 2) ∧
      ∃ aligned out fault, Rowset.align period.grid
          ⟨[.plain "m" .integer true], .ofAnswers ((returning 70).map .ok)⟩ = .ok aligned ∧
        aligned.rows.answers = ended out (some (.eval fault)) ∧
        (out.map (·.timestamp)).Pairwise (· < ·) := by
  let period : Period := .fixed ⟨60000, .utc, by decide⟩
  have hoff : period.grid.FirstReturnOffStart (returning 70) :=
    .of_isChain (.cons_cons (fun _ => by decide) (.singleton _))
  have hreturn : period.grid.Returns (atSecond 130 1) (atSecond 70 2) :=
    ⟨(atSecond 120 0).timestamp, (atSecond 60 0).timestamp, by decide, by decide, by decide⟩
  obtain ⟨aligned, out, ending, haligned, hout, hascending, hends⟩ := @align_ascends_off_starts
    ⟨[.plain "m" .integer true], .ofAnswers ((returning 70).map .ok)⟩ _ (returning 70) none
    period rfl rfl rfl rfl hoff
  obtain ⟨fault, rfl⟩ := hends [] _ _ [] rfl hreturn (by simp)
  exact ⟨period, rfl, hoff, hreturn, aligned, out, fault, haligned, hout, hascending⟩

/-- A return onto the start of a bucket is answered. -/
theorem align_returns_to_start :
    ∃ period, (PeriodSpec.fixed 60 0).build = .ok period ∧
      period.grid.Returns (atSecond 130 1) (atSecond 60 2) ∧
      ∃ aligned, Rowset.align period.grid
          ⟨[.plain "m" .integer true], .ofAnswers ((returning 60).map .ok)⟩ = .ok aligned ∧
        aligned.rows.answers = [atSecond 120 1, atSecond 60 2].map .ok ∧
        ¬ ([atSecond 120 1, atSecond 60 2].map (·.timestamp)).Pairwise (· < ·) := by
  let period : Period := .fixed ⟨60000, .utc, by decide⟩
  have hfirst :
      period.grid.align (atSecond 130 1).timestamp = some (atSecond 120 1).timestamp := by
    decide
  have hlate : period.grid.align (atSecond 60 2).timestamp = some (atSecond 60 2).timestamp := by
    decide
  have hback : (atSecond 60 2).timestamp < (atSecond 120 1).timestamp := by decide
  refine ⟨period, rfl, ⟨_, _, hfirst, hlate, hback⟩, _, align_eq_ok period.grid rfl rfl rfl, ?_,
    by decide⟩
  rw [Stream.answers_guard, Stream.answers_transduce, Stream.answers_ofAnswers]
  simp only [returning, List.map_cons, transduced, Alignment.step_initial hfirst,
    Alignment.step_return period.floors hfirst hlate hback]
  rfl

end Rowset

end SeriesQuery
