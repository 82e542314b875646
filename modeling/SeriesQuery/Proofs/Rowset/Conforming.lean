import SeriesQuery.Proofs.Conformance
import SeriesQuery.Proofs.Merge.Slots
import SeriesQuery.Proofs.Query.Execution

/-!
# Conforming rowsets

A rowset conforms if every row that it ever answers, whatever its puller does,
conforms to its fields. Each stage that chooses, computes or joins rows gives a
conforming rowset where it is given such.
-/

namespace SeriesQuery

/-- Every row that is ever answered conforms to the fields. -/
def Rowset.Conforming (rowset : Rowset) : Prop :=
  rowset.rows.Always (fun sample => sample.value.Conforms rowset.fields) fun _ => True

variable {E : QueryError → Prop}

theorem evaluating_outcome {x : Except EvalError α} {Q : α → Prop}
    (he : Outcome x (fun _ => True) fun e => E (.eval e)) (h : ∀ a, x = .ok a → Q a) :
    Outcome (QueryError.evaluating x) Q E := by
  cases x with
  | error e => exact he
  | ok a => exact h a rfl

-- ---------------------------------------------------------------------------
-- Chosen and computed rows
-- ---------------------------------------------------------------------------

namespace Rowset

theorem window_always {rowset : Rowset} (hc : E .cancelled)
    (h : rowset.rows.Always (fun s => s.value.Conforms rowset.fields) E) :
    (rowset.window range).rows.Always (fun s => s.value.Conforms rowset.fields) E := by
  refine (h.filterMap (fun _ he => he) fun sample hsample answer ha => ?_).guard hc
  split at ha
  · cases ha
    exact hsample
  · cases ha

theorem Conforming.window {rowset : Rowset} (h : rowset.Conforming) :
    (rowset.window range).Conforming :=
  window_always trivial h

theorem evalChecked_admits {compiled : Compiled} {row : Row}
    (h : compiled.evalChecked row = .ok value) : compiled.field.Admits value := by
  simp only [Compiled.evalChecked, bind_eq_ok, EvalError.within_eq_ok, pure_eq_ok] at h
  obtain ⟨value, -, _, hcheck, rfl⟩ := h
  exact hcheck

theorem project_always {rowset out : Rowset} (hc : E .cancelled)
    (hv : ∀ compiled row, Column.compileAll rowset.fields 0 columns = .ok compiled →
      row.Conforms rowset.fields → ∀ column ∈ compiled,
        Outcome (column.evalChecked row) (fun _ => True) fun e => E (.eval e))
    (h : rowset.rows.Always (fun s => s.value.Conforms rowset.fields) E)
    (ho : rowset.project columns = .ok out) :
    out.rows.Always (fun s => s.value.Conforms out.fields) E := by
  simp only [Rowset.project, bind_eq_ok, QueryError.compiling_eq_ok, pure_eq_ok] at ho
  obtain ⟨compiled, hcompiled, _, -, rfl⟩ := ho
  refine (h.filterMap (fun _ he => he) fun sample hsample answer ha => ?_).guard hc
  cases ha
  have hcolumns := Outcome.mapM (hv compiled sample.value hcompiled hsample)
  refine evaluating_outcome (hcolumns.bind fun _ _ => trivial) fun out hout => ?_
  simp only [bind_eq_ok, pure_eq_ok, mapM_eq_ok] at hout
  obtain ⟨values, hvalues, rfl⟩ := hout
  exact List.forall₂_map_left_iff.mpr (hvalues.imp fun _ _ hv => evalChecked_admits hv)

theorem Conforming.project {rowset out : Rowset} (h : rowset.Conforming)
    (ho : rowset.project columns = .ok out) : out.Conforming :=
  project_always trivial (fun _ _ _ _ _ _ => .any) h ho

theorem keepWhere_always {rowset out : Rowset} (hc : E .cancelled)
    (hv : ∀ compiled row, predicate.compile rowset.fields = .ok compiled →
      row.Conforms rowset.fields →
      Outcome (compiled.eval row) (fun _ => True) fun e => E (.eval e))
    (h : rowset.rows.Always (fun s => s.value.Conforms rowset.fields) E)
    (ho : rowset.keepWhere predicate = .ok out) :
    out.rows.Always (fun s => s.value.Conforms out.fields) E := by
  simp only [Rowset.keepWhere, bind_eq_ok, QueryError.compiling_eq_ok, CompileError.within_eq_ok,
    throw_unless_eq_ok, pure_eq_ok] at ho
  obtain ⟨compiled, hcompiled, -, rfl⟩ := ho
  refine (h.filterMap (fun _ he => he) fun sample hsample answer ha => ?_).guard hc
  have heval := hv compiled sample.value hcompiled hsample
  split at ha
  · split at ha
    · cases ha
      exact hsample
    · cases ha
  · next e he =>
    rw [he] at heval
    cases ha
    exact heval

theorem Conforming.keepWhere {rowset out : Rowset} (h : rowset.Conforming)
    (ho : rowset.keepWhere predicate = .ok out) : out.Conforming :=
  keepWhere_always trivial (fun _ _ _ _ => .any) h ho

theorem conforms_modify {fields : List Field} {row : Row} {change : Override}
    (h : row.Conforms fields) : row.Conforms (fields.modify index change.apply) := by
  unfold Row.Conforms at h ⊢
  induction h generalizing index with
  | nil => simp
  | cons hv hrest ih =>
    cases index with
    | zero =>
      rw [List.modify_zero_cons]
      exact .cons (hv.congr rfl rfl) hrest
    | succ index =>
      rw [List.modify_succ_cons]
      exact .cons hv ih

theorem override_always {rowset out : Rowset}
    (h : rowset.rows.Always (fun s => s.value.Conforms rowset.fields) E)
    (ho : rowset.override target change = .ok out) :
    out.rows.Always (fun s => s.value.Conforms out.fields) E := by
  simp only [Rowset.override, bind_eq_ok, pure_eq_ok] at ho
  obtain ⟨index, -, _, -, rfl⟩ := ho
  exact h.mono (fun _ hrow => conforms_modify hrow) fun _ he => he

theorem Conforming.override {rowset out : Rowset} (h : rowset.Conforming)
    (ho : rowset.override target change = .ok out) : out.Conforming :=
  override_always h ho

-- ---------------------------------------------------------------------------
-- Joined rows
-- ---------------------------------------------------------------------------

theorem joinStreams_always {kind : JoinKind} {R : β → Prop} (Qs : List (α → Prop))
    {streams : List (Stream (Sample α))} {combine : Slots α → Except EvalError β}
    (hc : E .cancelled) (hu : ∀ input a b, E (.eval (.unsorted input a b)))
    (hs : List.Forall₂ (fun Q stream => Stream.Always (fun s => Q s.value) E stream) Qs streams)
    (hcombine : ∀ slots, SlotsFit kind Qs slots →
      Outcome (combine slots) R fun e => E (.eval (.context "join" e))) :
    (joinStreams kind streams combine).Always (fun s => R s.value) E := by
  have hstreams : (Merge.ofStreams kind streams).Always Qs E := .ofStreams hs
  have hmerge := Merge.stream_always hu hstreams
  refine (hmerge.filterMap (fun _ he => he) fun row hrow answer ha => ?_).guard hc
  cases ha
  have hcombined := hcombine row.value hrow
  cases hrow' : combine row.value with
  | error e =>
    rw [hrow'] at hcombined
    exact hcombined
  | ok b =>
    rw [hrow'] at hcombined
    exact hcombined

theorem conforms_optional {fields : List Field} {row : Row} (h : row.Conforms fields) :
    row.Conforms (fields.map fun field => field.retype field.dataType false) := by
  refine List.forall₂_map_left_iff.mpr (h.imp fun field value hv => ?_)
  rcases Field.admits_iff.mp hv with ⟨rfl, -⟩ | htype
  · exact Field.admits_null.mpr rfl
  · exact Field.admits_of_dataType htype

theorem conforms_nulls {fields : List Field} :
    Row.Conforms (fields.map fun field => field.retype field.dataType false)
      (List.replicate fields.length .null) := by
  induction fields with
  | nil => exact .nil
  | cons field rest ih => exact .cons (Field.admits_null.mpr rfl) ih

theorem flatten_conforms {kind : JoinKind} {inputs : List Rowset} {slots : Slots Row}
    (index n : Nat)
    (hv : List.Forall₂ (fun input slot => ∀ row : Row, slot = some row → row.Conforms input.fields)
      inputs slots)
    (hp : ∀ k, kind.isOptional (index + k) = false → slots[k]? ≠ some none) :
    ∃ row, flatten n (inputs.map (·.fields.length)) slots = .ok row ∧
      row.Conforms (joinedFields kind index inputs) := by
  induction hv generalizing index n with
  | nil => exact ⟨[], rfl, .nil⟩
  | @cons input slot inputs slots hslot _ ih =>
    have hlater : ∀ k, kind.isOptional (index + 1 + k) = false → slots[k]? ≠ some none := by
      intro k hk
      have hat := hp (k + 1)
      rw [List.getElem?_cons_succ] at hat
      exact hat (by rwa [Nat.add_assoc, Nat.add_comm 1 k] at hk)
    obtain ⟨others, hothers, hrest⟩ := ih (index + 1) (n + 1) hlater
    cases slot with
    | none =>
      have hopt : kind.isOptional index = true :=
        (Bool.not_eq_false _).mp fun hno => hp 0 hno rfl
      refine ⟨List.replicate input.fields.length .null ++ others, ?_, List.rel_append ?_ hrest⟩
      · simp only [List.map_cons, flatten, pure_bind, hothers]
        rfl
      · rw [if_pos hopt]
        exact conforms_nulls
    | some first =>
      have hfirst := hslot first rfl
      refine ⟨first ++ others, ?_, List.rel_append ?_ hrest⟩
      · simp only [List.map_cons, flatten, if_pos hfirst.length_eq, pure_bind, hothers]
        rfl
      · split
        · exact conforms_optional hfirst
        · exact hfirst

theorem join_always {kind : JoinKind} {inputs : List Rowset} {out : Rowset} (hc : E .cancelled)
    (hu : ∀ input a b, E (.eval (.unsorted input a b)))
    (h : ∀ input ∈ inputs, input.rows.Always (fun s => s.value.Conforms input.fields) E)
    (ho : Rowset.join kind inputs = .ok out) :
    out.rows.Always (fun s => s.value.Conforms out.fields) E := by
  obtain ⟨-, rfl⟩ := join_eq_ok.mp ho
  refine joinStreams_always (inputs.map fun input row => Row.Conforms input.fields row)
    hc hu ?_ fun slots hfit => ?_
  · rw [List.forall₂_map_left_iff, List.forall₂_map_right_iff, List.forall₂_same]
    exact h
  · obtain ⟨row, hrow, hconforms⟩ := flatten_conforms 0 0
      (List.forall₂_map_left_iff.mp hfit.values)
      fun k hk => hfit.present k (Nat.zero_add k ▸ hk)
    rw [hrow]
    exact hconforms

theorem Conforming.join {kind : JoinKind} {inputs : List Rowset} {out : Rowset}
    (h : ∀ input ∈ inputs, input.Conforming) (ho : Rowset.join kind inputs = .ok out) :
    out.Conforming :=
  join_always trivial (fun _ _ _ => trivial) h ho

end Rowset

end SeriesQuery
