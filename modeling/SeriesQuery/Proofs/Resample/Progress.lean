import SeriesQuery.Proofs.Resample.GapFill

/-!
# Filling gaps on any grid

Nothing is promised of the functions of a grid. Whatever they answer, each gap
gets points that go forward within it, and no more of them than the limit; what
keeps a gap from being closed ends the run with an error that names it.
`Reached` is how far the filling of a gap has come, `Fault` what can stop it
there, and `Course` the run over a whole series.
-/

namespace SeriesQuery

def Grid.Stays (grid : Grid) (t : Instant) : Prop :=
  ∀ next, grid.next t = some next → next ≤ t

theorem Grid.Stays.of_le {grid : Grid} (hnext : grid.next t = some u) (hle : u ≤ t) :
    grid.Stays t := by
  intro later hlater
  exact Option.some.inj (hnext.symm.trans hlater) ▸ hle

theorem Grid.Stays.of_none {grid : Grid} (hnone : grid.next t = none) : grid.Stays t := by
  intro later hlater
  simp [hnone] at hlater

namespace GapFill

/-- The filling of a gap stands at a boundary, behind the points it has answered. -/
structure Reached (fill : GapFill) (type : DataType) (before after : Sample Row)
    (gap : List (Sample Row)) (boundary : Instant) : Prop where
  walk : fill.grid.Walk before.timestamp boundary
    (before.timestamp :: gap.map (·.timestamp) ++ [boundary])
  inside : ∀ point ∈ gap, point.timestamp < after.timestamp
  values : ∀ point ∈ gap, fillSample fill.mode type before after point.timestamp = .ok point
  length_le : gap.length ≤ fill.limit

/-- The filling of a gap asks the grid for the boundary that follows an instant:
the sample before the gap, or a boundary in the gap that could get a point. -/
inductive Asked (fill : GapFill) (type : DataType) (before after : Sample Row) :
    List (Sample Row) → Instant → Prop where
  | opening : Asked fill type before after [] before.timestamp
  | point : Reached fill type before after gap boundary → boundary < after.timestamp →
      gap.length < fill.limit → fillSample fill.mode type before after boundary = .ok point →
      Asked fill type before after gap boundary

/-- What stops the filling of a gap behind some points. -/
inductive Fault (fill : GapFill) (type : DataType) (stage : String) (before after : Sample Row) :
    List (Sample Row) → QueryError → Prop where
  | stalled : Asked fill type before after gap t → fill.grid.next t = some next → next ≤ t →
      Fault fill type stage before after gap (.eval (.context stage (.nonAdvancingPeriod t)))
  | outOfCalendar : Asked fill type before after gap t → fill.grid.next t = none →
      Fault fill type stage before after gap .outOfCalendar
  | tooLarge : Reached fill type before after gap boundary → boundary < after.timestamp →
      gap.length = fill.limit →
      Fault fill type stage before after gap (.eval (.context stage
        (.gapTooLarge before.timestamp after.timestamp fill.limit)))
  /-- The samples around the gap have no value between them. -/
  | noValue : Reached fill type before after gap boundary → boundary < after.timestamp →
      gap.length < fill.limit → fillSample fill.mode type before after boundary = .error e →
      Fault fill type stage before after gap (.eval (.context stage e))

/-- A run over a series that ends with `failure`, if that is an error: the points
behind each of its samples, and the error that ends the run. -/
inductive Course (fill : GapFill) (type : DataType) (stage : String)
    (failure : Option QueryError) :
    List (Sample Row) → List (List (Sample Row)) → Option QueryError → Prop where
  | empty : Course fill type stage failure [] [] failure
  | last : Course fill type stage failure [sample] [[]] failure
  | closed : Reached fill type before after gap boundary → ¬ boundary < after.timestamp →
      Course fill type stage failure (after :: rest) gaps ending →
      Course fill type stage failure (before :: after :: rest) (gap :: gaps) ending
  | stopped : Fault fill type stage before after gap e →
      Course fill type stage failure (before :: after :: rest) [gap] (some e)

variable {fill : GapFill} {type : DataType} {stage : String} {before after : Sample Row}
  {pull continued : Pull (Sample Row)} {gap items : List (Sample Row)}
  {gaps : List (List (Sample Row))} {failure ending : Option QueryError}

-- ---------------------------------------------------------------------------
-- One gap
-- ---------------------------------------------------------------------------

theorem Reached.point (h : Reached fill type before after gap boundary)
    (hbefore : boundary < after.timestamp) (hbudget : gap.length < fill.limit)
    (hsample : fillSample fill.mode type before after boundary = .ok sample)
    (hnext : fill.grid.next boundary = some next) (hforward : boundary < next) :
    Reached fill type before after (gap ++ [sample]) next := by
  have htimestamp := fillSample_timestamp hsample
  refine ⟨?_, ?_, ?_, ?_⟩
  · have hwalk := h.walk.append (.step hnext hforward .stop)
    simpa [htimestamp] using hwalk
  · simpa [or_imp, forall_and, htimestamp] using ⟨h.inside, hbefore⟩
  · simpa [or_imp, forall_and, htimestamp] using ⟨h.values, hsample⟩
  · simpa using Nat.succ_le_of_lt hbudget

theorem Reached.fillFrom (h : Reached fill type before after gap boundary)
    (hbudget : gap.length + budget = fill.limit) :
    ∃ points, (∃ last, Reached fill type before after (gap ++ points) last ∧
        ¬ last < after.timestamp ∧
        (GapFill.fillFrom fill type stage before after continued budget boundary).answers =
          points.map .ok ++ continued.answers) ∨
      ∃ e, Fault fill type stage before after (gap ++ points) e ∧
        (GapFill.fillFrom fill type stage before after continued budget boundary).answers =
          points.map .ok ++ [.error e] := by
  induction budget generalizing gap boundary with
  | zero =>
    rw [GapFill.fillFrom]
    split
    · next hbefore =>
      exact ⟨[], .inr ⟨_, .tooLarge (by simpa using h) hbefore (by simpa using hbudget), rfl⟩⟩
    · next hdone => exact ⟨[], .inl ⟨boundary, by simpa using h, hdone, rfl⟩⟩
  | succ budget ih =>
    rw [GapFill.fillFrom]
    split
    · next hbefore =>
      have hleft : gap.length < fill.limit := by omega
      split
      · next e hvalue =>
        exact ⟨[], .inr ⟨_, .noValue (by simpa using h) hbefore (by simpa using hleft) hvalue, rfl⟩⟩
      · next point hvalue =>
        have hasked := Asked.point h hbefore hleft hvalue
        split
        · next hnext => exact ⟨[], .inr ⟨_, .outOfCalendar (by simpa using hasked) hnext, rfl⟩⟩
        · next next hnext =>
          split
          · next hle => exact ⟨[], .inr ⟨_, .stalled (by simpa using hasked) hnext hle, rfl⟩⟩
          · next hforward =>
            have hpoint := h.point hbefore hleft hvalue hnext (Std.not_le.mp hforward)
            obtain ⟨points, hpoints⟩ := ih hpoint (by simp; omega)
            rw [List.append_assoc] at hpoints
            refine ⟨point :: points, hpoints.imp ?_ ?_⟩
            · rintro ⟨last, hreached, hdone, hanswers⟩
              exact ⟨last, hreached, hdone, by simpa using hanswers⟩
            · rintro ⟨e, hfault, hanswers⟩
              exact ⟨e, hfault, by simpa using hanswers⟩
    · next hdone => exact ⟨[], .inl ⟨boundary, by simpa using h, hdone, rfl⟩⟩

-- ---------------------------------------------------------------------------
-- Whole series
-- ---------------------------------------------------------------------------

/-- The samples of a series, each with the points behind it. -/
def weave (items : List (Sample Row)) (gaps : List (List (Sample Row))) : List (Sample Row) :=
  (List.zipWith List.cons items gaps).flatten

@[simp] theorem weave_cons_cons : weave (sample :: items) (gap :: gaps) =
    sample :: gap ++ weave items gaps := rfl

@[simp] theorem weave_nil : weave items [] = [] := by simp [weave]

theorem Reached.opening (hnext : fill.grid.next before.timestamp = some boundary)
    (hforward : before.timestamp < boundary) : Reached fill type before after [] boundary where
  walk := .step hnext hforward .stop
  inside := by simp
  values := by simp
  length_le := Nat.zero_le _

theorem run_course (hpull : untilError pull.answers = ended items failure) :
    ∃ gaps ending, Course fill type stage failure (before :: items) gaps ending ∧
      .ok before :: (run fill type stage (some before) pull).answers =
        ended (weave (before :: items) gaps) ending := by
  induction pull generalizing before items with
  | stop =>
    obtain ⟨rfl, rfl⟩ := nil_eq_ended.mp hpull
    exact ⟨[[]], none, .last, rfl⟩
  | item answer next ih =>
    cases answer with
    | error e =>
      obtain ⟨rfl, rfl, -⟩ := error_cons_eq_ended.mp hpull
      exact ⟨[[]], some e, .last, rfl⟩
    | ok after =>
      obtain ⟨rest, rfl, hrest⟩ := ok_cons_eq_ended.mp hpull
      have hstopped : ∀ {gap e pull}, Fault fill type stage before after gap e →
          Pull.answers pull = gap.map .ok ++ [.error e] →
          ∃ gaps ending, Course fill type stage failure (before :: after :: rest) gaps ending ∧
            .ok before :: pull.answers =
              ended (weave (before :: after :: rest) gaps) ending :=
        fun hfault hanswers => ⟨_, _, .stopped hfault, by simp [hanswers, ended]⟩
      rw [run]
      split
      · next hnext => exact hstopped (.outOfCalendar .opening hnext) rfl
      · next boundary hnext =>
        split
        · next hle => exact hstopped (.stalled .opening hnext hle) rfl
        · next hforward =>
          have hopening : Reached fill type before after [] boundary :=
            .opening hnext (Std.not_le.mp hforward)
          obtain ⟨points, ⟨last, hreached, hdone, hanswers⟩ | ⟨e, hfault, hanswers⟩⟩ :=
            hopening.fillFrom (Nat.zero_add _)
          · obtain ⟨gaps, ending, hcourse, hafter⟩ := ih false hrest
            refine ⟨_, _, .closed hreached hdone hcourse, ?_⟩
            rw [hanswers, Pull.answers_item, hafter]
            simp [ended]
          · exact hstopped hfault hanswers

theorem Course.complete_or_stopped (h : Course fill type stage failure items gaps ending) :
    (gaps.length = items.length ∧ ending = failure) ∨
      ∃ front before after back gap e, items = front ++ before :: after :: back ∧
        gaps.length = front.length + 1 ∧ gaps.getLast? = some gap ∧ ending = some e ∧
        Fault fill type stage before after gap e := by
  induction h with
  | empty => exact .inl ⟨rfl, rfl⟩
  | last => exact .inl ⟨rfl, rfl⟩
  | @closed sample _ _ _ _ _ _ _ _ _ ih =>
    rcases ih with ⟨hlength, hending⟩ |
      ⟨front, before, after, back, gap, e, hitems, hlength, hlast, hending, hfault⟩
    · exact .inl ⟨congrArg (· + 1) hlength, hending⟩
    · refine .inr ⟨sample :: front, before, after, back, gap, e, congrArg (sample :: ·) hitems,
        congrArg (· + 1) hlength, ?_, hending, hfault⟩
      rw [List.getLast?_cons, hlast, Option.getD_some]
  | stopped hfault => exact .inr ⟨[], _, _, _, _, _, rfl, rfl, rfl, rfl, hfault⟩

theorem Course.behind (h : Course fill type stage failure items gaps ending)
    (hgap : gaps[i]? = some gap) :
    (gap = [] ∧ items[i + 1]? = none) ∨ ∃ before after,
      items[i]? = some before ∧ items[i + 1]? = some after ∧
      ((∃ boundary, Reached fill type before after gap boundary ∧ ¬ boundary < after.timestamp) ∨
        ∃ e, gaps.length = i + 1 ∧ ending = some e ∧
          Fault fill type stage before after gap e) := by
  induction h generalizing i with
  | empty => simp at hgap
  | last =>
    obtain ⟨rfl, rfl⟩ : i = 0 ∧ gap = [] := by cases i <;> simp_all
    exact .inl ⟨rfl, rfl⟩
  | closed hreached hdone _ ih =>
    cases i with
    | zero =>
      obtain rfl := Option.some.inj hgap
      exact .inr ⟨_, _, rfl, rfl, .inl ⟨_, hreached, hdone⟩⟩
    | succ i => simpa using ih hgap
  | stopped hfault =>
    cases i with
    | zero =>
      obtain rfl := Option.some.inj hgap
      exact .inr ⟨_, _, rfl, rfl, .inr ⟨_, rfl, rfl, hfault⟩⟩
    | succ i => simp at hgap

theorem run_none_course (fill : GapFill) (type : DataType) (stage : String)
    (hpull : untilError pull.answers = ended items failure) :
    ∃ gaps ending, Course fill type stage failure items gaps ending ∧
      (run fill type stage none pull).answers = ended (weave items gaps) ending := by
  cases pull with
  | stop =>
    obtain ⟨rfl, rfl⟩ := nil_eq_ended.mp hpull
    exact ⟨[], none, .empty, rfl⟩
  | item answer next =>
    cases answer with
    | error e =>
      obtain ⟨rfl, rfl, -⟩ := error_cons_eq_ended.mp hpull
      exact ⟨[], some e, .empty, rfl⟩
    | ok sample =>
      obtain ⟨rest, rfl, hrest⟩ := ok_cons_eq_ended.mp hpull
      exact run_course hrest

-- ---------------------------------------------------------------------------
-- Grids that do not go forward
-- ---------------------------------------------------------------------------

theorem Reached.next_eq (h : Reached fill type before after gap boundary)
    (hlast : (before.timestamp :: gap.map (·.timestamp)).getLast? = some last) :
    fill.grid.next last = some boundary ∧ last < boundary := by
  obtain ⟨front, hfront⟩ := List.getLast?_eq_some_iff.mp hlast
  have hwalk := h.walk
  rw [hfront, List.append_assoc] at hwalk
  exact hwalk.next_last

theorem Asked.stands (h : Asked fill type before after gap t)
    (hstays : fill.grid.Stays t) (hreached : Reached fill type before after gap boundary) :
    boundary = t ∧ t < after.timestamp ∧ gap.length < fill.limit ∧
      ∃ point, fillSample fill.mode type before after t = .ok point := by
  obtain ⟨last, hlast⟩ := Option.ne_none_iff_exists'.mp
    (mt List.getLast?_eq_none_iff.mp (List.cons_ne_nil before.timestamp (gap.map (·.timestamp))))
  obtain ⟨hnext, hlt⟩ := hreached.next_eq hlast
  cases h with
  | opening =>
    obtain rfl : before.timestamp = last := by simpa using hlast
    exact absurd hlt (Std.not_lt.mpr (hstays _ hnext))
  | point hpoint hbefore hleft hvalue =>
    exact ⟨Option.some.inj (hnext.symm.trans (hpoint.next_eq hlast).1), hbefore, hleft, _, hvalue⟩

theorem Asked.unique (h : Asked fill type before after gap t)
    (h' : Asked fill type before after gap u)
    (hstays : fill.grid.Stays t) (hstays' : fill.grid.Stays u) : t = u := by
  cases h' with
  | opening =>
    cases h with
    | opening => rfl
    | point hpoint => exact (Asked.opening.stands hstays' hpoint).1
  | point hpoint => exact (h.stands hstays hpoint).1.symm

theorem Fault.eq_stalled (h : Fault fill type stage before after gap e)
    (hasked : Asked fill type before after gap t) (hnext : fill.grid.next t = some next)
    (hle : next ≤ t) : e = .eval (.context stage (.nonAdvancingPeriod t)) := by
  have hstays : fill.grid.Stays t := .of_le hnext hle
  cases h with
  | stalled hasked' hnext' hle' =>
    rw [hasked.unique hasked' hstays (.of_le hnext' hle')]
  | outOfCalendar hasked' hnone =>
    obtain rfl := hasked.unique hasked' hstays (.of_none hnone)
    simp [hnext] at hnone
  | tooLarge hreached _ hfull =>
    have hleft := (hasked.stands hstays hreached).2.2.1
    omega
  | noValue hreached _ _ hvalue =>
    obtain ⟨rfl, -, -, _, hpoint⟩ := hasked.stands hstays hreached
    simp [hpoint] at hvalue

theorem Course.eq_stalled (h : Course fill type stage failure items gaps ending)
    (hbefore : items[i]? = some before) (hafter : items[i + 1]? = some after)
    (hgap : gaps[i]? = some gap) (hasked : Asked fill type before after gap t)
    (hnext : fill.grid.next t = some next) (hle : next ≤ t) :
    gaps.length = i + 1 ∧ ending = some (.eval (.context stage (.nonAdvancingPeriod t))) := by
  obtain ⟨-, hnone⟩ | ⟨_, _, hb, ha, hends⟩ := h.behind hgap
  · simp [hafter] at hnone
  obtain rfl := Option.some.inj (hbefore.symm.trans hb)
  obtain rfl := Option.some.inj (hafter.symm.trans ha)
  rcases hends with ⟨boundary, hreached, hdone⟩ | ⟨e, hlength, rfl, hfault⟩
  · obtain ⟨rfl, hlt, -⟩ := hasked.stands (.of_le hnext hle) hreached
    exact absurd hlt hdone
  · exact ⟨hlength, by rw [hfault.eq_stalled hasked hnext hle]⟩

-- ---------------------------------------------------------------------------
-- Points
-- ---------------------------------------------------------------------------

theorem Reached.between (h : Reached fill type before after gap boundary) :
    gap.length ≤ fill.limit ∧ (gap.map (·.timestamp)).Pairwise (· < ·) ∧
      ∀ point ∈ gap, before.timestamp < point.timestamp ∧ point.timestamp < after.timestamp := by
  have hascending := (List.pairwise_append.mp h.walk.ascending).1
  exact ⟨h.length_le, hascending.of_cons, fun point hpoint =>
    ⟨List.rel_of_pairwise_cons hascending (List.mem_map_of_mem hpoint), h.inside point hpoint⟩⟩

theorem Fault.reached (h : Fault fill type stage before after gap e) :
    gap = [] ∨ ∃ boundary, Reached fill type before after gap boundary := by
  cases h with
  | stalled hasked | outOfCalendar hasked =>
    cases hasked with
    | opening => exact .inl rfl
    | point hreached => exact .inr ⟨_, hreached⟩
  | tooLarge hreached | noValue hreached => exact .inr ⟨_, hreached⟩

theorem Course.between (h : Course fill type stage failure items gaps ending)
    (hgap : gaps[i]? = some gap) :
    gap.length ≤ fill.limit ∧ (gap.map (·.timestamp)).Pairwise (· < ·) ∧
      ∀ point ∈ gap, ∃ before after, items[i]? = some before ∧ items[i + 1]? = some after ∧
        before.timestamp < point.timestamp ∧ point.timestamp < after.timestamp := by
  have hreached : gap = [] ∨ ∃ before after boundary, items[i]? = some before ∧
      items[i + 1]? = some after ∧ Reached fill type before after gap boundary := by
    obtain ⟨hnil, -⟩ | ⟨before, after, hb, ha, hends⟩ := h.behind hgap
    · exact .inl hnil
    rcases hends with ⟨boundary, hreached, -⟩ | ⟨e, -, -, hfault⟩
    · exact .inr ⟨before, after, boundary, hb, ha, hreached⟩
    · exact hfault.reached.imp_right fun ⟨boundary, hreached⟩ =>
        ⟨before, after, boundary, hb, ha, hreached⟩
  obtain rfl | ⟨before, after, boundary, hb, ha, hreached⟩ := hreached
  · simp
  · obtain ⟨hlength, hascending, hinside⟩ := hreached.between
    exact ⟨hlength, hascending, fun point hpoint => ⟨before, after, hb, ha, hinside point hpoint⟩⟩

theorem Course.length_weave_le (h : Course fill type stage failure items gaps ending) :
    (weave items gaps).length ≤ items.length + (items.length - 1) * fill.limit := by
  induction h with
  | empty => simp
  | last => simp
  | @closed _ _ gap _ rest _ _ hreached _ _ ih =>
    have hgap := hreached.length_le
    simp only [weave_cons_cons, List.length_append, List.length_cons, Nat.add_sub_cancel] at ih ⊢
    have hlimit : (rest.length + 1) * fill.limit = rest.length * fill.limit + fill.limit :=
      Nat.succ_mul ..
    omega
  | @stopped _ _ gap _ rest hfault =>
    have hgap : gap.length ≤ fill.limit := by
      obtain rfl | ⟨boundary, hreached⟩ := hfault.reached
      · exact Nat.zero_le _
      · exact hreached.length_le
    have hlimit : fill.limit ≤ (rest.length + 1) * fill.limit :=
      Nat.le_mul_of_pos_left _ (Nat.succ_pos _)
    simp only [weave_cons_cons, weave_nil, List.append_nil, List.length_cons,
      Nat.add_sub_cancel]
    omega

end GapFill

-- ---------------------------------------------------------------------------
-- Rowsets
-- ---------------------------------------------------------------------------

namespace Rowset

open GapFill (Course Asked Fault weave)

variable {rowset : Rowset} {field : Field} {items : List (Sample Row)}
  {failure : Option QueryError}

theorem gapFill_course (fill : GapFill) (hfields : rowset.fields = [field])
    (hmode : fill.mode = .linear → field.dataType.isNumeric = true)
    (hanswers : untilError rowset.rows.answers = ended items failure) :
    ∃ filled gaps ending, rowset.gapFill fill = .ok filled ∧
      Course fill field.dataType ("gap_fill(" ++ field.urn ++ ")") failure items gaps ending ∧
      filled.rows.answers = ended (weave items gaps) ending := by
  obtain ⟨gaps, ending, hcourse, hrun⟩ :=
    GapFill.run_none_course fill field.dataType ("gap_fill(" ++ field.urn ++ ")") hanswers
  refine ⟨_, gaps, ending, gapFill_eq_ok_of_mode fill hfields hmode, hcourse, ?_⟩
  rw [Stream.answers_guard, Stream.answers, hrun, untilError_ended]

/-- Filling the gaps of a series keeps its samples in their order, whatever the
grid: up to its end or the gap that it stops in, with a fault of that gap. A gap
gets points between the samples around it, which go forward, no more of them
than the limit, and where the grid does not go forward there is no other answer
than that. -/
theorem gapFill_keeps_samples (fill : GapFill) (hfields : rowset.fields = [field])
    (hmode : fill.mode = .linear → field.dataType.isNumeric = true)
    (hanswers : untilError rowset.rows.answers = ended items failure) :
    ∃ filled gaps ending, rowset.gapFill fill = .ok filled ∧
      filled.rows.answers = ended (weave items gaps) ending ∧
      ((gaps.length = items.length ∧ ending = failure) ∨
        ∃ front before after back gap e, items = front ++ before :: after :: back ∧
          gaps.length = front.length + 1 ∧ gaps.getLast? = some gap ∧ ending = some e ∧
          Fault fill field.dataType ("gap_fill(" ++ field.urn ++ ")") before after gap e) ∧
      (∀ (i : Nat) gap, gaps[i]? = some gap →
        gap.length ≤ fill.limit ∧ (gap.map (·.timestamp)).Pairwise (· < ·) ∧
        ∀ point ∈ gap, ∃ before after, items[i]? = some before ∧ items[i + 1]? = some after ∧
          before.timestamp < point.timestamp ∧ point.timestamp < after.timestamp) ∧
      (∀ (i : Nat) before after gap t next, items[i]? = some before →
        items[i + 1]? = some after → gaps[i]? = some gap →
        Asked fill field.dataType before after gap t → fill.grid.next t = some next → next ≤ t →
        gaps.length = i + 1 ∧ ending = some (.eval (.context ("gap_fill(" ++ field.urn ++ ")")
          (.nonAdvancingPeriod t)))) ∧
      (weave items gaps).length ≤ items.length + (items.length - 1) * fill.limit := by
  obtain ⟨filled, gaps, ending, hfilled, hcourse, hout⟩ :=
    gapFill_course fill hfields hmode hanswers
  exact ⟨filled, gaps, ending, hfilled, hout, hcourse.complete_or_stopped,
    fun i gap hgap => hcourse.between hgap,
    fun i before after gap t next hbefore hafter hgap hasked hnext hle =>
      hcourse.eq_stalled hbefore hafter hgap hasked hnext hle,
    hcourse.length_weave_le⟩

theorem first_le_hour (count : UInt8) :
    Instant.firstNanos ≤ (count.toNat : Int) * 3600000000000 := by
  simp only [Instant.firstNanos]
  omega

theorem hour_le_last (count : UInt8) :
    (count.toNat : Int) * 3600000000000 ≤ Instant.lastNanos := by
  have hlt := count.toNat_lt
  simp only [Instant.lastNanos]
  omega

def hour (count : UInt8) : Instant :=
  .ofNanos (count.toNat * 3600000000000) (first_le_hour count) (hour_le_last count)

def stuckGrid : Grid where
  align := some
  next t := if t < hour 2 then t.plus? 3600000000000 else some t
  name := "stuck"

def backAndForth : List (Sample Row) :=
  [⟨hour 1, [.string "a"]⟩, ⟨hour 0, [.string "b"]⟩, ⟨hour 3, [.string "c"]⟩]

theorem stuckGrid_keeps_samples :
    (FillMode.forwardFill = .linear → DataType.string.isNumeric = true) ∧
    untilError (Stream.ofAnswers (backAndForth.map .ok)).answers = ended backAndForth none ∧
    ∃ filled gaps ending,
      Rowset.gapFill ⟨stuckGrid, .forwardFill, 5⟩
        ⟨[.plain "m" .string true], .ofAnswers (backAndForth.map .ok)⟩ = .ok filled ∧
      filled.rows.answers = ended (weave backAndForth gaps) ending ∧
      filled.rows.answers = [.ok ⟨hour 1, [.string "a"]⟩, .ok ⟨hour 0, [.string "b"]⟩,
        .ok ⟨hour 1, [.string "b"]⟩,
        .error (.eval (.context "gap_fill(m)" (.nonAdvancingPeriod (hour 2))))] ∧
      (weave backAndForth gaps).length ≤ 13 := by
  have hmode : FillMode.forwardFill = .linear → DataType.string.isNumeric = true := by decide
  obtain ⟨filled, gaps, ending, hfilled, hout, -, -, -, hlength⟩ :=
    @gapFill_keeps_samples ⟨[.plain "m" .string true], .ofAnswers (backAndForth.map .ok)⟩ _
      backAndForth none ⟨stuckGrid, .forwardFill, 5⟩ rfl hmode rfl
  refine ⟨hmode, rfl, filled, gaps, ending, hfilled, hout, ?_, hlength⟩
  have hanswers := (gapFill_eq_ok_of_mode _ rfl hmode).symm.trans hfilled
  cases hanswers
  rfl

end Rowset

end SeriesQuery
