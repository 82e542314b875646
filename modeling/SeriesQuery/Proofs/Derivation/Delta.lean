import Mathlib.Algebra.Ring.Int.Defs
import SeriesQuery.Proofs.Derivation.Successive

/-!
# Differences of integers

The differences of a series of integers are exact: they are answered up to the
first one that 64 bits do not hold, and a value of the series is its first value
and the differences up to there.
-/

namespace SeriesQuery

/-- The exact differences of a series, each at the later sample. -/
def differences (points : List (Sample Int64)) : List (Sample Int) :=
  (successive points).map fun pair => ⟨pair.2.timestamp, pair.2.value.toInt - pair.1.value.toInt⟩

@[simp] theorem differences_singleton {first : Sample Int64} : differences [first] = [] := rfl

@[simp] theorem differences_cons_cons {first second : Sample Int64}
    {rest : List (Sample Int64)} :
    differences (first :: second :: rest) =
      ⟨second.timestamp, second.value.toInt - first.value.toInt⟩ ::
        differences (second :: rest) := rfl

@[simp] theorem length_differences {points : List (Sample Int64)} :
    (differences points).length = points.length - 1 := by
  simp [differences]

theorem sum_differences {first last : Sample Int64} {rest : List (Sample Int64)} {k : Nat}
    (h : (first :: rest)[k]? = some last) :
    first.value.toInt + (((differences (first :: rest)).take k).map (·.value)).sum =
      last.value.toInt := by
  induction rest generalizing first k with
  | nil =>
    obtain ⟨rfl, rfl⟩ : k = 0 ∧ first = last := by cases k <;> simp_all
    simp
  | cons second rest ih =>
    cases k with
    | zero =>
      obtain rfl := Option.some.inj h
      simp
    | succ k =>
      have hrest := @ih second k h
      simp only [differences_cons_cons, List.take_succ_cons, List.map_cons, List.sum_cons]
      omega

namespace Derivation

theorem subtract_integers_of_fits {type : DataType} {current previous : Int64}
    (h : FitsInteger (current.toInt - previous.toInt)) :
    subtract type (.integer current) (.integer previous) =
      .ok (.integer (.ofInt (current.toInt - previous.toInt))) := by
  simp only [subtract, integer?, if_pos h]

theorem subtract_integers_of_not_fits {type : DataType} {current previous : Int64}
    (h : ¬ FitsInteger (current.toInt - previous.toInt)) :
    subtract type (.integer current) (.integer previous) = .error (.overflow "delta") := by
  simp only [subtract, integer?, if_neg h]

theorem delta_pairs (type : DataType) (samples : List (Sample Value)) :
    (delta type).Pairs (fun before current => subtract type current.value before.value) samples :=
  ⟨fun _ _ => rfl, fun _ _ _ _ => rfl⟩

end Derivation

theorem findSome?_ite {p : α → Prop} [DecidablePred p] {l : List α} {e : ε} :
    (l.findSome? fun a => if p a then none else some e) =
      if ∀ a ∈ l, p a then none else some e := by
  induction l with
  | nil => rfl
  | cons a rest ih => by_cases h : p a <;> simp [h, ih]

namespace Rowset

variable {rowset : Rowset} {field : Field} {items : List (Sample Row)}
  {points emitted : List (Sample Int64)} {failure : Option QueryError}

theorem delta_of_field (hfields : rowset.fields = [field])
    (hnumeric : field.dataType.isNumeric = true) (hrequired : field.required = true) :
    rowset.delta =
      .ok ⟨[field], rowset.derive (.delta field.dataType) ("delta(" ++ field.urn ++ ")")⟩ := by
  simp only [delta, bind_eq_ok, QueryError.compiling_eq_ok, numericField_eq_ok, pure_eq_ok]
  exact ⟨field, ⟨hfields, hnumeric, hrequired⟩, rfl⟩

theorem derive_delta_integers (type : DataType)
    (hanswers : untilError rowset.rows.answers = ended (points.map .ofInteger) failure) :
    ∃ emitted : List (Sample Int64),
      (rowset.derive (.delta type) stage).answers = ended (emitted.map .ofInteger)
        (if ∀ d ∈ differences points, FitsInteger d.value then failure
          else some (.eval (.context stage (.overflow "delta")))) ∧
      emitted.map Sample.exact = (differences points).takeWhile (FitsInteger ·.value) := by
  let fault (before current : Int64) : Option EvalError :=
    if FitsInteger (current.toInt - before.toInt) then none else some (.overflow "delta")
  have hvalue : ∀ pair ∈ successive points,
      Derivation.subtract type (.integer pair.2.value) (.integer pair.1.value) =
        (fault pair.1.value pair.2.value).elim
          (.ok (.integer (.ofInt (pair.2.value.toInt - pair.1.value.toInt)))) .error := by
    intro pair _
    by_cases h : FitsInteger (pair.2.value.toInt - pair.1.value.toInt)
    · simp only [fault, if_pos h, Derivation.subtract_integers_of_fits h, Option.elim]
    · simp only [fault, if_neg h, Derivation.subtract_integers_of_not_fits h, Option.elim]
  have hfits : ∀ pair ∈ successive points, fault pair.1.value pair.2.value = none →
      FitsInteger (pair.2.value.toInt - pair.1.value.toInt) := by
    intro pair _ hnone
    by_contra h
    simp only [fault, if_neg h] at hnone
    cases hnone
  obtain ⟨emitted, hrun, hemitted⟩ := derive_answers_integers
    (fun before current => current.toInt - before.toInt) hanswers
    (Derivation.delta_pairs type _) hvalue hfits
  refine ⟨emitted, hrun.trans ?_, hemitted.trans ?_⟩
  · simp only [fault, findSome?_ite, differences, List.forall_mem_map]
    split <;> rfl
  · rw [differences, List.takeWhile_map]
    congr 2
    funext pair
    simp only [fault, Function.comp]
    split <;> simp_all

theorem sum_emitted {first : Sample Int64} {rest : List (Sample Int64)}
    (h : emitted.map Sample.exact =
      (differences (first :: rest)).takeWhile (FitsInteger ·.value))
    (hk : k ≤ emitted.length) :
    ∃ last, (first :: rest)[k]? = some last ∧
      first.value.toInt + ((emitted.take k).map (·.value.toInt)).sum = last.value.toInt := by
  have hprefix : emitted.map Sample.exact <+: differences (first :: rest) :=
    h ▸ List.takeWhile_prefix _
  have hlength := hprefix.length_le
  simp only [List.length_map, length_differences, List.length_cons] at hlength
  obtain ⟨last, hlast⟩ : ∃ last, (first :: rest)[k]? = some last :=
    ⟨_, List.getElem?_eq_getElem (by rw [List.length_cons]; omega)⟩
  have htake : (emitted.take k).map Sample.exact = (differences (first :: rest)).take k := by
    rw [List.map_take, List.prefix_iff_eq_take.mp hprefix, List.take_take, List.length_map,
      Nat.min_eq_left hk]
  refine ⟨last, hlast, ?_⟩
  rw [← sum_differences hlast, ← htake, List.map_map]
  rfl

/-- The differences of a series of integers are answered exactly, each at the
later sample, up to the first one that 64 bits do not hold. The first value and
the differences answered so far add up to the value of the series there. -/
theorem delta_answers_differences (hfields : rowset.fields = [field])
    (htype : field.dataType = .integer) (hrequired : field.required = true)
    (hanswers : untilError rowset.rows.answers = ended items failure)
    (hconforms : ∀ s ∈ items, s.value.Conforms [field]) :
    ∃ (points : List (Sample Int64)) (derived : Rowset) (emitted : List (Sample Int64)),
      items = points.map .ofInteger ∧ rowset.delta = .ok derived ∧ derived.fields = [field] ∧
      derived.rows.answers = ended (emitted.map .ofInteger)
        (if ∀ d ∈ differences points, FitsInteger d.value then failure
          else some (.eval (.context ("delta(" ++ field.urn ++ ")") (.overflow "delta")))) ∧
      emitted.map Sample.exact = (differences points).takeWhile (FitsInteger ·.value) ∧
      ∀ first rest, points = first :: rest → ∀ k ≤ emitted.length, ∃ last,
        points[k]? = some last ∧
          first.value.toInt + ((emitted.take k).map (·.value.toInt)).sum = last.value.toInt := by
  obtain ⟨points, rfl⟩ := exists_map_ofInteger htype hrequired hconforms
  have hnumeric : field.dataType.isNumeric = true := by rw [htype]; rfl
  obtain ⟨emitted, hrun, hemitted⟩ := derive_delta_integers field.dataType hanswers
  refine ⟨points, _, emitted, rfl, delta_of_field hfields hnumeric hrequired, rfl, hrun, hemitted,
    ?_⟩
  rintro first rest rfl k hk
  exact sum_emitted hemitted hk

def unsteady : List (Sample Int64) :=
  [⟨.epoch, 5⟩, ⟨.ofNanos (-1), -3⟩, ⟨.epoch, 9223372036854775807⟩]

theorem unsteady_answers_differences :
    (∀ s ∈ unsteady.map Sample.ofInteger, s.value.Conforms [.plain "m" .integer true]) ∧
    ∃ (points : List (Sample Int64)) (derived : Rowset) (emitted : List (Sample Int64)),
      unsteady.map Sample.ofInteger = points.map .ofInteger ∧
      (ofIntegers [.plain "m" .integer true] unsteady none).delta = .ok derived ∧
      derived.rows.answers = [.ok ⟨.ofNanos (-1), [.integer (-8)]⟩,
        .error (.eval (.context "delta(m)" (.overflow "delta")))] ∧
      emitted.map Sample.exact = (differences points).takeWhile (FitsInteger ·.value) := by
  have hconforms : ∀ s ∈ unsteady.map Sample.ofInteger,
      s.value.Conforms [.plain "m" .integer true] := by
    intro s hs
    obtain ⟨point, -, rfl⟩ := List.mem_map.mp hs
    exact conforms_value rfl
  obtain ⟨points, derived, emitted, hpoints, hderived, -, -, hemitted, -⟩ :=
    @delta_answers_differences (ofIntegers [.plain "m" .integer true] unsteady none) _ _ none
      rfl rfl rfl untilError_ofIntegers hconforms
  refine ⟨hconforms, points, derived, emitted, hpoints, hderived, ?_, hemitted⟩
  obtain rfl := Except.ok.inj ((delta_of_field rfl rfl rfl).symm.trans hderived)
  rfl

end Rowset

end SeriesQuery
