import SeriesQuery.Proofs.Rowset.Series
import SeriesQuery.Proofs.Stream.Answers

/-!
# Successive samples

A derivation that keeps each sample answers once for each two successive samples
of a series, from these two alone, up to its first failure.
-/

namespace SeriesQuery

/-- Each element of a list but the first, with the one before it. -/
def successive (l : List α) : List (α × α) := l.zip l.tail

@[simp] theorem successive_nil : successive ([] : List α) = [] := rfl

@[simp] theorem successive_singleton {a : α} : successive [a] = [] := rfl

@[simp] theorem successive_cons_cons {a b : α} {l : List α} :
    successive (a :: b :: l) = (a, b) :: successive (b :: l) := rfl

@[simp] theorem length_successive {l : List α} : (successive l).length = l.length - 1 := by
  simp [successive]

theorem successive_map {f : α → β} {l : List α} :
    successive (l.map f) = (successive l).map (Prod.map f f) := by
  rw [successive, ← List.map_tail, List.zip_map, successive]

theorem map_snd_successive {l : List α} : (successive l).map Prod.snd = l.tail :=
  List.map_snd_zip (by simp)

theorem mem_of_mem_successive {l : List α} {pair : α × α} (h : pair ∈ successive l) :
    pair.1 ∈ l ∧ pair.2 ∈ l := by
  obtain ⟨hbefore, hcurrent⟩ := List.of_mem_zip h
  exact ⟨hbefore, List.mem_of_mem_tail hcurrent⟩

-- ---------------------------------------------------------------------------
-- Derivations that keep each sample
-- ---------------------------------------------------------------------------

namespace Derivation

def answerAt (stage : String) (timestamp : Instant) (value : Except EvalError Value) :
    Except QueryError (Sample Row) :=
  QueryError.evaluating ((EvalError.within stage value).map fun value => ⟨timestamp, [value]⟩)

/-- Of these samples the derivation keeps each one, and it answers from the one
kept and the next one. -/
structure Pairs (derivation : Derivation)
    (value : Sample Value → Sample Value → Except EvalError Value) (samples : List (Sample Value)) :
    Prop where
  first : ∀ current ∈ samples, derivation none current = (some current, .ok none)
  next : ∀ before ∈ samples, ∀ current ∈ samples,
    derivation (some before) current = (some current, (value before current).map some)

variable {derivation : Derivation} {value : Sample Value → Sample Value → Except EvalError Value}
  {before current : Sample Row} {items : List (Sample Row)}

theorem step_none (h : derivation none current.scalar = (some current.scalar, .ok none)) :
    derivation.step stage none current = (some current.scalar, none) := by
  rw [step, h]

theorem step_some (h : derivation (some before.scalar) current.scalar =
    (some current.scalar, (value before.scalar current.scalar).map some)) :
    derivation.step stage (some before.scalar) current = (some current.scalar,
      some (answerAt stage current.timestamp (value before.scalar current.scalar))) := by
  rw [step, h]
  cases value before.scalar current.scalar with
  | error e => rfl
  | ok v => rfl

theorem Pairs.transduced_some (h : derivation.Pairs value ((before :: items).map .scalar)) :
    transduced (derivation.step stage) (some before.scalar) (items.map .ok) =
      (successive (before :: items)).map fun pair =>
        answerAt stage pair.2.timestamp (value pair.1.scalar pair.2.scalar) := by
  induction items generalizing before with
  | nil => rfl
  | cons current rest ih =>
    have hstep := h.next _ List.mem_cons_self _ (List.mem_cons_of_mem _ List.mem_cons_self)
    have hrest : derivation.Pairs value ((current :: rest).map .scalar) :=
      ⟨fun _ hs => h.first _ (List.mem_cons_of_mem _ hs), fun _ hs _ hs' =>
        h.next _ (List.mem_cons_of_mem _ hs) _ (List.mem_cons_of_mem _ hs')⟩
    rw [List.map_cons, transduced, step_some hstep]
    exact congrArg (_ :: ·) (ih hrest)

theorem Pairs.transduced (h : derivation.Pairs value (items.map .scalar)) :
    transduced (derivation.step stage) none (items.map .ok) =
      (successive items).map fun pair =>
        answerAt stage pair.2.timestamp (value pair.1.scalar pair.2.scalar) := by
  cases items with
  | nil => rfl
  | cons current rest =>
    rw [List.map_cons, SeriesQuery.transduced, step_none (h.first _ List.mem_cons_self)]
    exact h.transduced_some

end Derivation

namespace Rowset

variable {derivation : Derivation} {value : Sample Value → Sample Value → Except EvalError Value}
  {rowset : Rowset} {items : List (Sample Row)} {failure : Option QueryError}

theorem derive_answers (hanswers : untilError rowset.rows.answers = ended items failure) :
    (rowset.derive derivation stage).answers =
      untilError (transduced (derivation.step stage) none (items.map .ok) ++
        failure.toList.map .error) := by
  rw [derive, Stream.answers_guard, Stream.answers_transduce, ← untilError_transduced_untilError,
    hanswers, transduced_ended]

theorem derive_answers_pairs (hanswers : untilError rowset.rows.answers = ended items failure)
    (h : derivation.Pairs value (items.map .scalar)) :
    (rowset.derive derivation stage).answers =
      untilError ((successive items).map (fun pair => Derivation.answerAt stage pair.2.timestamp
        (value pair.1.scalar pair.2.scalar)) ++ failure.toList.map .error) := by
  rw [derive_answers hanswers, h.transduced]

end Rowset

-- ---------------------------------------------------------------------------
-- Series of integers
-- ---------------------------------------------------------------------------

namespace Sample

def ofInteger (point : Sample Int64) : Sample Row := ⟨point.timestamp, [.integer point.value]⟩

def exact (point : Sample Int64) : Sample Int := ⟨point.timestamp, point.value.toInt⟩

@[simp] theorem scalar_ofInteger {point : Sample Int64} :
    point.ofInteger.scalar = ⟨point.timestamp, .integer point.value⟩ := rfl

theorem map_ofInteger_inj {l l' : List (Sample Int64)} :
    l.map ofInteger = l'.map ofInteger ↔ l = l' := by
  refine List.map_inj_right fun a b h => ?_
  cases a
  cases b
  simpa [ofInteger] using h

end Sample

theorem Value.eq_integer_of_dataType {value : Value} (h : value.dataType? = some .integer) :
    ∃ i, value = .integer i := by
  cases value with
  | integer i => exact ⟨i, rfl⟩
  | _ => cases h

theorem exists_ofInteger {field : Field} {sample : Sample Row} (htype : field.dataType = .integer)
    (hrequired : field.required = true) (h : sample.value.Conforms [field]) :
    ∃ point : Sample Int64, sample = point.ofInteger := by
  obtain ⟨value, hvalue, hadmits⟩ := conforms_one.mp h
  obtain ⟨i, rfl⟩ := Value.eq_integer_of_dataType
    ((hadmits.dataType_of_required hrequired).trans (congrArg some htype))
  exact ⟨⟨sample.timestamp, i⟩, by rw [Sample.ofInteger, ← hvalue]⟩

theorem exists_map_ofInteger {field : Field} {items : List (Sample Row)}
    (htype : field.dataType = .integer) (hrequired : field.required = true)
    (hconforms : ∀ s ∈ items, s.value.Conforms [field]) :
    ∃ points : List (Sample Int64), items = points.map .ofInteger := by
  induction items with
  | nil => exact ⟨[], rfl⟩
  | cons sample rest ih =>
    obtain ⟨hsample, hrest⟩ := List.forall_mem_cons.mp hconforms
    obtain ⟨point, rfl⟩ := exists_ofInteger htype hrequired hsample
    obtain ⟨points, rfl⟩ := ih hrest
    exact ⟨point :: points, rfl⟩

def Rowset.ofIntegers (fields : List Field) (points : List (Sample Int64))
    (failure : Option QueryError) : Rowset :=
  ⟨fields, .ofAnswers (ended (points.map .ofInteger) failure)⟩

@[simp] theorem Rowset.untilError_ofIntegers {fields : List Field} {points : List (Sample Int64)}
    {failure : Option QueryError} :
    untilError (ofIntegers fields points failure).rows.answers =
      ended (points.map .ofInteger) failure := by
  rw [ofIntegers, Stream.answers_ofAnswers, untilError_ended]

theorem Rowset.derive_answers_integers {derivation : Derivation}
    {value : Sample Value → Sample Value → Except EvalError Value} {rowset : Rowset}
    {points : List (Sample Int64)} {failure : Option QueryError}
    {fault : Int64 → Int64 → Option EvalError} (number : Int64 → Int64 → Int)
    (hanswers : untilError rowset.rows.answers = ended (points.map .ofInteger) failure)
    (hpairs : derivation.Pairs value ((points.map Sample.ofInteger).map .scalar))
    (hvalue : ∀ pair ∈ successive points,
      value pair.1.ofInteger.scalar pair.2.ofInteger.scalar =
        (fault pair.1.value pair.2.value).elim
          (.ok (.integer (.ofInt (number pair.1.value pair.2.value)))) .error)
    (hfits : ∀ pair ∈ successive points, fault pair.1.value pair.2.value = none →
      FitsInteger (number pair.1.value pair.2.value)) :
    ∃ emitted : List (Sample Int64),
      (rowset.derive derivation stage).answers = ended (emitted.map .ofInteger)
        ((((successive points).findSome? fun pair => fault pair.1.value pair.2.value).map
          fun e => .eval (.context stage e)).or failure) ∧
      emitted.map Sample.exact =
        ((successive points).takeWhile fun pair => (fault pair.1.value pair.2.value).isNone).map
          fun pair => ⟨pair.2.timestamp, number pair.1.value pair.2.value⟩ := by
  let item (pair : Sample Int64 × Sample Int64) : Sample Int64 :=
    ⟨pair.2.timestamp, .ofInt (number pair.1.value pair.2.value)⟩
  let failing (pair : Sample Int64 × Sample Int64) : Option QueryError :=
    (fault pair.1.value pair.2.value).map fun e => .eval (.context stage e)
  have hanswer : ∀ pair ∈ successive points,
      Derivation.answerAt stage pair.2.timestamp
          (value pair.1.ofInteger.scalar pair.2.ofInteger.scalar) =
        (failing pair).elim (.ok (item pair).ofInteger) .error := by
    intro pair hpair
    rw [hvalue pair hpair]
    simp only [failing, item]
    cases fault pair.1.value pair.2.value with
    | none => rfl
    | some e => rfl
  refine ⟨((successive points).takeWhile fun pair =>
    (fault pair.1.value pair.2.value).isNone).map item, ?_, ?_⟩
  · have hrun := untilError_map_append hanswer failure
    simp only [failing, Option.isNone_map] at hrun
    rw [derive_answers_pairs hanswers hpairs, successive_map, List.map_map, List.map_map,
      List.map_findSome?]
    exact hrun
  · rw [List.map_map]
    refine List.map_congr_left fun pair hpair => ?_
    have hnone := List.all_eq_true.mp List.all_takeWhile pair hpair
    have hmem := (List.takeWhile_prefix _).mem hpair
    simp only [Function.comp, Sample.exact, item,
      toInt_of_integer? (if_pos (hfits pair hmem (Option.isNone_iff_eq_none.mp hnone)))]

end SeriesQuery
