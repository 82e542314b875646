import SeriesQuery.Proofs.Query.Execution
import SeriesQuery.Proofs.Resample.Align

/-!
# The input that a reduction refuses

A reduction takes inputs of one required numeric field each, all of one type. All
of them are aligned before their types are compared. So where there are inputs of
both kinds, the error names the first that is no such field, even if an input
before it has the wrong type.
-/

namespace SeriesQuery

-- ---------------------------------------------------------------------------
-- First elements
-- ---------------------------------------------------------------------------

/-- The first element of a list with a property, and its index. -/
structure IsFirst (p : α → Prop) (l : List α) (index : Nat) (a : α) : Prop where
  at_index : l[index]? = some a
  holds : p a
  before : ∀ b ∈ l.take index, ¬ p b

theorem IsFirst.head {p : α → Prop} (h : p a) : IsFirst p (a :: rest) 0 a :=
  ⟨rfl, h, by simp⟩

theorem IsFirst.tail {p : α → Prop} (hb : ¬ p b) (h : IsFirst p rest index a) :
    IsFirst p (b :: rest) (index + 1) a :=
  ⟨h.at_index, h.holds, by simpa [hb] using h.before⟩

theorem forall_isFirst_of_pos {p q : α → Prop} (h : p a) :
    (∀ index b, IsFirst p (a :: rest) index b → q b) ↔ q a := by
  refine ⟨fun hall => hall 0 a (.head h), fun hq index b hb => ?_⟩
  cases index with
  | zero =>
    obtain rfl : a = b := by simpa using hb.at_index
    exact hq
  | succ index => exact absurd h (hb.before a (by simp))

theorem forall_isFirst_of_neg {p q : α → Prop} (h : ¬ p a) :
    (∀ index b, IsFirst p (a :: rest) index b → q b) ↔ ∀ index b, IsFirst p rest index b → q b := by
  refine ⟨fun hall index b hb => hall (index + 1) b (hb.tail h), fun hall index b hb => ?_⟩
  cases index with
  | zero =>
    obtain rfl : a = b := by simpa using hb.at_index
    exact absurd hb.holds h
  | succ index =>
    exact hall index b ⟨hb.at_index, hb.holds, fun c hc => hb.before c (by simp [hc])⟩

theorem IsFirst.mem {p : α → Prop} (h : IsFirst p l index a) : a ∈ l :=
  List.mem_of_getElem? h.at_index

namespace Rowset

/-- The input is one required numeric field. -/
def Alignable (input : Rowset) : Prop :=
  ∃ field, input.fields = [field] ∧ field.dataType.isNumeric = true ∧ field.required = true

def firstUrn (input : Rowset) : String := (input.fields.head?.map (·.urn)).getD ""

def firstType? (input : Rowset) : Option DataType := input.fields.head?.map (·.dataType)

/-- The input that a reduction refuses, its index and what is wrong with it. -/
inductive Offends (grid : Grid) (inputs : List Rowset) (index : Nat) (input : Rowset) :
    ReductionFault CompileError → Prop where
  | unalignable : IsFirst (fun input => ¬ Alignable input) inputs index input →
      input.alignSingle grid = .error (.compile cause) →
      Offends grid inputs index input (.unalignable cause)
  | typeDiffers : (∀ other ∈ inputs, other.Alignable) →
      inputs.head?.bind firstType? = some expected → input.firstType? = some found →
      IsFirst (fun input => firstType? input ≠ some expected) inputs index input →
      Offends grid inputs index input (.typeDiffers expected found)

theorem firstUrn_single {input : Rowset} (h : input.fields = [field]) :
    input.firstUrn = field.urn := by
  simp [firstUrn, h]

theorem firstType?_single {input : Rowset} (h : input.fields = [field]) :
    input.firstType? = some field.dataType := by
  simp [firstType?, h]

-- ---------------------------------------------------------------------------
-- Alignments
-- ---------------------------------------------------------------------------

theorem alignSingle_of_alignable (grid : Grid) {input : Rowset} (h : input.Alignable) :
    ∃ single, input.alignSingle grid = .ok single := by
  obtain ⟨field, hfields, hnumeric, hrequired⟩ := h
  obtain ⟨single, hsingle, -⟩ := map_eq_ok.mp (align_eq_ok grid hfields hnumeric hrequired)
  exact ⟨single, hsingle⟩

theorem alignSingle_of_not_alignable (grid : Grid) {input : Rowset} (h : ¬ input.Alignable) :
    ∃ cause, input.alignSingle grid = .error (.compile cause) := by
  unfold alignSingle singleField
  split
  · next field hfields =>
    cases hnumeric : field.dataType.isNumeric with
    | false => exact ⟨_, by simp [QueryError.compiling, Bind.bind, Except.bind, hnumeric]; rfl⟩
    | true =>
      have hrequired : field.required = false := by
        simpa using fun hrequired => h ⟨field, hfields, hnumeric, hrequired⟩
      exact ⟨_, by simp [QueryError.compiling, Bind.bind, Except.bind, hnumeric, hrequired]; rfl⟩
  · exact ⟨_, rfl⟩

theorem alignInput_of_error {input : Rowset} (index : Nat)
    (h : input.alignSingle grid = .error (.compile cause)) :
    alignInput grid index input =
      .error (.compile (.reductionInput index input.firstUrn (.unalignable cause))) := by
  simp [alignInput, h, firstUrn]

theorem alignInputs_of_alignable (grid : Grid) {inputs : List Rowset}
    (h : ∀ input ∈ inputs, input.Alignable) :
    ∃ singles, alignInputs grid 0 (inputs.map .ok) = .ok singles ∧
      List.Forall₂ (fun input single => input.alignSingle grid = .ok single) inputs singles := by
  obtain ⟨singles, hsingles⟩ :=
    exists_forall₂ fun input hinput => alignSingle_of_alignable grid (h input hinput)
  refine ⟨singles, ?_, hsingles⟩
  rw [alignInputs_eq_ok, List.forall₂_map_left_iff]
  exact hsingles.imp fun input _ hsingle => ⟨input, rfl, hsingle⟩

theorem alignInputs_of_not_alignable (grid : Grid) (index : Nat) {inputs : List Rowset}
    (h : ¬ ∀ input ∈ inputs, input.Alignable) :
    ∃ place input cause, IsFirst (fun input => ¬ Alignable input) inputs place input ∧
      input.alignSingle grid = .error (.compile cause) ∧
      alignInputs grid index (inputs.map .ok) = .error (.compile
        (.reductionInput (index + place) input.firstUrn (.unalignable cause))) := by
  induction inputs generalizing index with
  | nil => simp at h
  | cons input rest ih =>
    by_cases hinput : input.Alignable
    · have hrest : ¬ ∀ input ∈ rest, input.Alignable := by simpa [hinput] using h
      obtain ⟨place, other, cause, hfirst, hcause, hrefused⟩ := ih (index + 1) hrest
      obtain ⟨single, hsingle⟩ := alignSingle_of_alignable grid hinput
      have haligned : alignInput grid index input = .ok single := alignInput_eq_ok.mpr hsingle
      refine ⟨place + 1, other, cause, hfirst.tail (by simpa using hinput), hcause, ?_⟩
      simp [alignInputs, haligned, hrefused, Bind.bind, Except.bind, Nat.add_comm 1,
        Nat.add_assoc]
    · obtain ⟨cause, hcause⟩ := alignSingle_of_not_alignable grid hinput
      have hrefused := alignInput_of_error index hcause
      refine ⟨0, input, cause, .head hinput, hcause, ?_⟩
      simp [alignInputs, hrefused, Bind.bind, Except.bind]

-- ---------------------------------------------------------------------------
-- Types
-- ---------------------------------------------------------------------------

theorem checkInputs_of_same {inputs : List Rowset} {singles : List SingleRowset} (index : Nat)
    (haligned : List.Forall₂ (fun input single => input.alignSingle grid = .ok single) inputs
      singles)
    (h : ∀ input ∈ inputs, input.firstType? = some type) :
    checkInputs type index singles = .ok () := by
  rw [checkInputs_eq_ok]
  intro single hsingle
  obtain ⟨input, hinput, hsingle⟩ := exists_of_forall₂ haligned.flip hsingle
  obtain ⟨hfield, hrequired, -⟩ := alignSingle_eq_ok hsingle
  exact ⟨by simpa [firstType?_single hfield] using h input hinput, hrequired⟩

theorem checkInputs_of_differing {inputs : List Rowset} {singles : List SingleRowset} (index : Nat)
    (haligned : List.Forall₂ (fun input single => input.alignSingle grid = .ok single) inputs
      singles)
    (h : ¬ ∀ input ∈ inputs, input.firstType? = some expected) :
    ∃ place input found, input.firstType? = some found ∧
      IsFirst (fun input => firstType? input ≠ some expected) inputs place input ∧
      checkInputs expected index singles =
        .error (.reductionInput (index + place) input.firstUrn (.typeDiffers expected found)) := by
  induction haligned generalizing index with
  | nil => simp at h
  | @cons input single inputs singles hsingle _ ih =>
    obtain ⟨hfield, hrequired, -⟩ := alignSingle_eq_ok hsingle
    have htype := firstType?_single hfield
    by_cases hsame : single.field.dataType = expected
    · have hrest : ¬ ∀ input ∈ inputs, input.firstType? = some expected := by
        simpa [htype, hsame] using h
      obtain ⟨place, other, found, hfound, hfirst, hrefused⟩ := ih (index + 1) hrest
      refine ⟨place + 1, other, found, hfound, hfirst.tail (by simp [htype, hsame]), ?_⟩
      simp [checkInputs, hsame, hrequired, hrefused, Nat.add_comm 1, Nat.add_assoc]
    · refine ⟨0, input, single.field.dataType, htype, .head (by simpa [htype]), ?_⟩
      simp [checkInputs, hsame, firstUrn_single hfield]

-- ---------------------------------------------------------------------------
-- Reductions
-- ---------------------------------------------------------------------------

/-- Each input is one required numeric field, and all these fields have one type. -/
def Reducible (inputs : List Rowset) : Prop :=
  (∀ input ∈ inputs, input.Alignable) ∧ ∃ type, ∀ input ∈ inputs, input.firstType? = some type

theorem Offends.not_reducible {inputs : List Rowset} {input : Rowset}
    (h : Offends grid inputs index input fault) : ¬ Reducible inputs := by
  rintro ⟨halignable, type, htype⟩
  cases h with
  | unalignable hfirst => exact hfirst.holds (halignable input hfirst.mem)
  | typeDiffers _ hexpected _ hfirst =>
    obtain ⟨first, hhead, hfirstType⟩ := Option.bind_eq_some_iff.mp hexpected
    have hsame := htype first (List.mem_of_head? hhead)
    exact hfirst.holds ((htype input hfirst.mem).trans (hsame.symm.trans hfirstType))

theorem reduceAligned_of_same (reduction : Reduction) (template : Field) {first : SingleRowset}
    (h : checkInputs first.field.dataType 0 (first :: rest) = .ok ()) :
    ∃ out, reduceAligned reduction template (first :: rest) = .ok out := by
  simp only [reduceAligned, bind_eq_ok, QueryError.compiling_eq_ok]
  split
  · exact ⟨_, (), h, rfl⟩
  · exact ⟨_, (), h, rfl⟩

theorem reduceAligned_of_differing (reduction : Reduction) (template : Field)
    {first : SingleRowset} (h : checkInputs first.field.dataType 0 (first :: rest) = .error e) :
    reduceAligned reduction template (first :: rest) = .error (.compile e) := by
  simp [reduceAligned, h, QueryError.compiling, Bind.bind, Except.bind]

theorem reduce_ok_or_offends (reduction : Reduction) (grid : Grid) (template : Field)
    (fallback : Option Expr) {inputs : List Rowset} (hne : inputs ≠ []) :
    (Reducible inputs ∧
        ∃ out, reduce reduction grid template fallback (inputs.map .ok) = .ok out) ∨
      ∃ index input fault, Offends grid inputs index input fault ∧
        reduce reduction grid template fallback (inputs.map .ok) =
          .error (.compile (.reductionInput index input.firstUrn fault)) := by
  have hreduce : reduce reduction grid template fallback (inputs.map .ok) =
      alignInputs grid 0 (inputs.map .ok) >>= reduceAligned reduction template := by
    simp [reduce, hne]
  rw [hreduce]
  by_cases halignable : ∀ input ∈ inputs, input.Alignable
  · obtain ⟨singles, hsingles, haligned⟩ := alignInputs_of_alignable grid halignable
    rw [hsingles]
    cases haligned with
    | nil => exact absurd rfl hne
    | @cons first single rest others hfirst hothers =>
      have hfield := (alignSingle_eq_ok hfirst).1
      by_cases htype : ∀ input ∈ first :: rest, input.firstType? = some single.field.dataType
      · have hcheck := checkInputs_of_same 0 (.cons hfirst hothers) htype
        exact .inl ⟨⟨halignable, _, htype⟩, reduceAligned_of_same reduction template hcheck⟩
      · obtain ⟨index, input, found, hfound, hdiffers, hcheck⟩ :=
          checkInputs_of_differing 0 (.cons hfirst hothers) htype
        rw [Nat.zero_add] at hcheck
        exact .inr ⟨index, input, _,
          .typeDiffers halignable (firstType?_single hfield) hfound hdiffers,
          reduceAligned_of_differing reduction template hcheck⟩
  · obtain ⟨index, input, cause, hfirst, hcause, hrefused⟩ :=
      alignInputs_of_not_alignable grid 0 halignable
    rw [Nat.zero_add] at hrefused
    exact .inr ⟨index, input, _, .unalignable hfirst hcause, by rw [hrefused]; rfl⟩

end Rowset

namespace Source

/-- A reduction of inputs that execute succeeds exactly if each of them is one
required numeric field and all these fields have one type. Otherwise the error
names the first input that is no such field, and where all of them are, the first
whose type is not that of the first input. -/
theorem reduce_refuses_offender {sources : List Source} {executed : List Rowset}
    (hne : sources ≠ [])
    (hsources : List.Forall₂ (fun source input => source.execute range = .ok input) sources
      executed) :
    ((∃ rowset, (Source.reduce reduction grid template sources fallback).execute range =
        .ok rowset) ↔ Rowset.Reducible executed) ∧
    (¬ Rowset.Reducible executed →
      ∃ index input fault, Rowset.Offends grid executed index input fault ∧
        (Source.reduce reduction grid template sources fallback).execute range =
          .error (.compile (.reductionInput index input.firstUrn fault))) := by
  have hexecuted : executeAll range sources = executed.map .ok := by
    rw [executeAll_eq, ← List.forall₂_eq_eq_eq, List.forall₂_map_left_iff,
      List.forall₂_map_right_iff]
    exact hsources
  rw [execute, hexecuted]
  rcases Rowset.reduce_ok_or_offends reduction grid template fallback
    (ne_nil_of_forall₂ hsources hne) with ⟨hreducible, hok⟩ | hrefused
  · exact ⟨iff_of_true hok hreducible, fun h => absurd hreducible h⟩
  · refine ⟨iff_of_false ?_ ?_, fun _ => hrefused⟩
    · obtain ⟨_, _, _, -, herror⟩ := hrefused
      simp [herror]
    · obtain ⟨_, _, _, hoffends, -⟩ := hrefused
      exact hoffends.not_reducible

def mixedInputs : List Source :=
  [.rows [.plain "a" .integer true] [⟨.epoch, [.integer 1]⟩],
    .rows [.plain "b" .decimal true] [⟨.epoch, [.decimal 1]⟩],
    .rows [.plain "c" .integer false] [⟨.epoch, [.null]⟩]]

theorem reduce_refuses_third_first :
    ∃ period executed, (PeriodSpec.fixed 60 0).build = .ok period ∧ mixedInputs ≠ [] ∧
      List.Forall₂ (fun source input => source.execute .all = .ok input) mixedInputs executed ∧
      (Source.reduce .sum period.grid (.plain "total" .integer true) mixedInputs none).execute
        .all = .error (.compile (.reductionInput 2 "c"
          (.unalignable (.context "align(c)" (.operandNotRequired "c"))))) ∧
      ((∃ rowset, (Source.reduce .sum period.grid (.plain "total" .integer true) mixedInputs
          none).execute .all = .ok rowset) ↔ Rowset.Reducible executed) ∧
      (¬ Rowset.Reducible executed →
        ∃ index input fault, Rowset.Offends period.grid executed index input fault ∧
          (Source.reduce .sum period.grid (.plain "total" .integer true) mixedInputs
            none).execute .all =
              .error (.compile (.reductionInput index input.firstUrn fault))) := by
  obtain ⟨executed, hexecuted⟩ : ∃ executed,
      List.Forall₂ (fun source input => source.execute .all = .ok input) mixedInputs executed :=
    ⟨_, .cons rfl (.cons rfl (.cons rfl .nil))⟩
  exact ⟨_, executed, rfl, List.cons_ne_nil _ _, hexecuted, rfl,
    reduce_refuses_offender (List.cons_ne_nil _ _) hexecuted⟩

end Source

end SeriesQuery
