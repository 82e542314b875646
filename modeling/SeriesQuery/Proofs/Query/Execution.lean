import SeriesQuery.Proofs.Outcome
import SeriesQuery.Source.Execute

/-!
# Successful executions

What the execution of a source consists of where it succeeds.
-/

namespace SeriesQuery

namespace Rowset

theorem join_eq_ok {kind : JoinKind} {inputs : List Rowset} {rowset : Rowset} :
    join kind inputs = .ok rowset ↔
      Field.validate (joinedFields kind 0 inputs) = .ok () ∧
        rowset = ⟨joinedFields kind 0 inputs, joinStreams kind (inputs.map (·.rows))
          (flatten 0 (inputs.map (·.fields.length)))⟩ := by
  simp only [join, bind_eq_ok, QueryError.compiling_eq_ok, pure_eq_ok]
  constructor
  · rintro ⟨_, hvalid, rfl⟩
    exact ⟨hvalid, rfl⟩
  · rintro ⟨hvalid, rfl⟩
    exact ⟨_, hvalid, rfl⟩

theorem alignInput_eq_ok {input : Rowset} {single : SingleRowset} :
    alignInput grid index input = .ok single ↔ input.alignSingle grid = .ok single := by
  unfold alignInput
  split
  · next heq => simp [heq]
  · exact Iff.rfl

theorem alignInputs_eq_ok {inputs : List (Except QueryError Rowset)} {singles : List SingleRowset} :
    alignInputs grid index inputs = .ok singles ↔
      List.Forall₂ (fun input single => ∃ rowset : Rowset, input = .ok rowset ∧
        rowset.alignSingle grid = .ok single) inputs singles := by
  induction inputs generalizing index singles with
  | nil => simp [alignInputs, eq_comm]
  | cons input rest ih =>
    simp only [alignInputs, bind_eq_ok, alignInput_eq_ok, ih, pure_eq_ok,
      List.forall₂_cons_left_iff]
    constructor
    · rintro ⟨rowset, hinput, single, hsingle, others, hothers, rfl⟩
      exact ⟨single, others, ⟨rowset, hinput, hsingle⟩, hothers, rfl⟩
    · rintro ⟨single, others, ⟨rowset, hinput, hsingle⟩, hothers, rfl⟩
      exact ⟨rowset, hinput, single, hsingle, others, hothers, rfl⟩

end Rowset

namespace Source

theorem executeAll_eq {range : TimeRange} {sources : List Source} :
    executeAll range sources = sources.map (execute range) := by
  induction sources with
  | nil => simp [executeAll]
  | cons source rest ih => rw [executeAll, ih, List.map_cons]

theorem execute_join_eq_ok {kind : JoinKind} {range : TimeRange} {sources : List Source}
    {rowset : Rowset} :
    (Source.join kind sources).execute range = .ok rowset ↔
      sources ≠ [] ∧ ∃ inputs,
        List.Forall₂ (fun source input => source.execute range = .ok input) sources inputs ∧
        Rowset.join kind inputs = .ok rowset := by
  cases sources with
  | nil => simp [execute, bind_eq_ok]
  | cons source rest =>
    have hskip : (source :: rest).isEmpty = false := rfl
    simp only [execute, hskip, Bool.false_eq_true, if_false, bind_eq_ok, executeAll_eq,
      mapM_eq_ok, List.forall₂_map_left_iff, id_eq, true_and, ne_eq, reduceCtorEq,
      not_false_eq_true]

theorem execute_reduce_eq_ok {sources : List Source} (hne : sources ≠ []) :
    (Source.reduce reduction grid template sources fallback).execute range = .ok rowset ↔
      ∃ inputs singles,
        List.Forall₂ (fun source input => source.execute range = .ok input) sources inputs ∧
        List.Forall₂ (fun input single => input.alignSingle grid = .ok single) inputs singles ∧
        Rowset.reduceAligned reduction template singles = .ok rowset := by
  have hsome : (sources.map (execute range)).isEmpty = false := by
    rwa [List.isEmpty_map, List.isEmpty_eq_false_iff]
  simp only [execute, executeAll_eq, Rowset.reduce, hsome, Bool.false_eq_true, if_false,
    bind_eq_ok, Rowset.alignInputs_eq_ok, List.forall₂_map_left_iff]
  constructor
  · rintro ⟨singles, hsingles, h⟩
    obtain ⟨inputs, hinputs, haligned⟩ := exists_forall₂_of_comp hsingles
    exact ⟨inputs, singles, hinputs, haligned, h⟩
  · rintro ⟨inputs, singles, hinputs, hsingles, h⟩
    exact ⟨singles, forall₂_comp hinputs hsingles fun _ input _ hi hs => ⟨input, hi, hs⟩, h⟩

end Source

end SeriesQuery
