import SeriesQuery.Proofs.Query.Fusion
import SeriesQuery.Proofs.Query.Typed
import SeriesQuery.Store.Basic

/-!
# The fields that a query tells

Fields can name the values of a row if no URN is blank and none occurs twice.
No query of the library tells a URN twice. Rows in memory, joins, projections and
overrides check their fields; a series, a reduction and the fallback of a
reduction without inputs take the one URN that they are given as it is. So a
blank URN is told exactly where one of these was given it and nothing behind it
checks: `Source.namesResult` computes where that is not the case.
-/

namespace SeriesQuery

-- ---------------------------------------------------------------------------
-- Fields that can name values
-- ---------------------------------------------------------------------------

theorem Text.mem_trimStart {text : List Char} (hc : isBlank c = false) (h : c ∈ text) :
    c ∈ trimStart text := by
  induction text with
  | nil => exact h
  | cons first rest ih =>
    rw [trimStart, List.dropWhile_cons]
    split
    · next hblank =>
      rcases List.mem_cons.mp h with rfl | h
      · simp [hc] at hblank
      · exact ih h
    · exact h

namespace Field

variable {field : Field} {fields others : List Field}

theorem hasBlankUrn_of_mem (hc : Text.isBlank c = false) (h : c ∈ field.urn.toList) :
    field.hasBlankUrn = false := by
  have htrim : c ∈ Text.trim field.urn.toList :=
    List.mem_reverse.mpr (Text.mem_trimStart hc (List.mem_reverse.mpr (Text.mem_trimStart hc h)))
  rw [hasBlankUrn, List.isEmpty_eq_false_iff]
  exact List.ne_nil_of_mem htrim

/-- Fields that can name the values of a row. -/
structure Named (fields : List Field) : Prop where
  filled : ∀ field ∈ fields, field.hasBlankUrn = false
  distinct : (fields.map (·.urn)).Nodup

theorem validateFrom_eq_ok : validateFrom seen fields = .ok () ↔
    Named fields ∧ ∀ field ∈ fields, field.urn ∉ seen := by
  induction fields generalizing seen with
  | nil => simp [validateFrom, Named.mk]
  | cons field rest ih =>
    rw [validateFrom]
    constructor
    · intro h
      split at h
      · cases h
      split at h
      · cases h
      next hfilled hseen =>
      obtain ⟨hnamed, hnew⟩ := ih.mp h
      refine ⟨⟨?_, ?_⟩, ?_⟩
      · exact List.forall_mem_cons.mpr ⟨by simpa using hfilled, hnamed.filled⟩
      · refine List.nodup_cons.mpr ⟨fun hmem => ?_, hnamed.distinct⟩
        obtain ⟨other, hother, heq⟩ := List.mem_map.mp hmem
        exact hnew other hother (heq ▸ List.mem_cons_self)
      · exact List.forall_mem_cons.mpr
          ⟨hseen, fun other hother hmem => hnew other hother (List.mem_cons_of_mem _ hmem)⟩
    · rintro ⟨⟨hfilled, hdistinct⟩, hnew⟩
      obtain ⟨hfirst, hfilled⟩ := List.forall_mem_cons.mp hfilled
      obtain ⟨hseen, hnew⟩ := List.forall_mem_cons.mp hnew
      obtain ⟨hfresh, hdistinct⟩ := List.nodup_cons.mp hdistinct
      rw [if_neg (by simp [hfirst]), if_neg hseen, ih]
      refine ⟨⟨hfilled, hdistinct⟩, fun other hother hmem => ?_⟩
      rcases List.mem_cons.mp hmem with heq | hmem
      · exact hfresh (List.mem_map.mpr ⟨other, hother, heq⟩)
      · exact hnew other hother hmem

theorem validate_eq_ok : validate fields = .ok () ↔ Named fields := by
  simp [validate, validateFrom_eq_ok]

theorem named_one : Named [field] ↔ field.hasBlankUrn = false :=
  ⟨fun h => h.filled field List.mem_cons_self, fun h => ⟨by simpa using h, by simp⟩⟩

theorem named_congr (h : fields.map (·.urn) = others.map (·.urn)) :
    Named fields ↔ Named others := by
  have hfilled : ∀ fields : List Field, (∀ field ∈ fields, field.hasBlankUrn = false) ↔
      ∀ urn ∈ fields.map (·.urn), (Text.trim urn.toList).isEmpty = false := by
    simp [hasBlankUrn]
  constructor
  · rintro ⟨hf, hd⟩
    exact ⟨(hfilled others).mpr (h ▸ (hfilled fields).mp hf), h ▸ hd⟩
  · rintro ⟨hf, hd⟩
    exact ⟨(hfilled fields).mpr (h ▸ (hfilled others).mp hf), h ▸ hd⟩

end Field

-- ---------------------------------------------------------------------------
-- Expressions
-- ---------------------------------------------------------------------------

/-- Whether the URN of the result is a blank one that the expression was given.
The URNs of computed values are put together from a symbol and those of the
operands, so they are never blank. -/
def Expr.hasBlankName : Expr → Bool
  | .constant field _ => field.hasBlankUrn
  | .reference urn => (Text.trim urn.toList).isEmpty
  | .cast source _ | .nvl source _ => source.hasBlankName
  | .condition .. | .logical .. | .numeric .. | .unary .. | .selector .. => false

theorem Field.indexOf_eq_ok {fields : List Field} {name : String}
    (h : indexOf fields name = .ok index) :
    ∃ field, fields[index]? = some field ∧ field.urn = name := by
  unfold indexOf at h
  split at h
  · next found hfound =>
    cases h
    obtain ⟨hlt, htest, -⟩ := List.findIdx?_eq_some_iff_getElem.mp hfound
    exact ⟨_, List.getElem?_eq_getElem hlt, of_decide_eq_true htest⟩
  · cases h

theorem Expr.compile_hasBlankUrn {expr : Expr} {compiled : Compiled}
    (h : expr.compile fields = .ok compiled) :
    compiled.field.hasBlankUrn = expr.hasBlankName := by
  -- the URN of a computed value has a parenthesis in it
  have hput : ∀ {field : Field}, '(' ∈ field.urn.toList → field.hasBlankUrn = false :=
    Field.hasBlankUrn_of_mem (by decide)
  induction expr generalizing compiled with
  | constant field value =>
    simp only [compile, Compiled.constant, throw_unless_eq_ok, pure_eq_ok] at h
    obtain ⟨-, -, rfl⟩ := h
    rfl
  | reference urn =>
    simp only [compile, Compiled.reference, bind_eq_ok] at h
    obtain ⟨index, hindex, h⟩ := h
    obtain ⟨field, hfield, rfl⟩ := Field.indexOf_eq_ok hindex
    rw [hfield] at h
    cases h
    rfl
  | cast source target ih =>
    simp only [compile, Compiled.cast, bind_eq_ok, CompileError.within_eq_ok, pure_eq_ok] at h
    obtain ⟨inner, hinner, conversion, -, rfl⟩ := h
    exact (ih hinner :)
  | condition op left right =>
    simp only [compile, Compiled.condition, bind_eq_ok, pure_eq_ok] at h
    obtain ⟨a, -, b, -, type, -, _, -, rfl⟩ := h
    exact hput (by simp [Compiled.binaryUrn, Field.plain])
  | logical op left right =>
    simp only [compile, Compiled.logical, bind_eq_ok, pure_eq_ok] at h
    obtain ⟨a, -, b, -, _, -, _, -, rfl⟩ := h
    exact hput (by simp [Compiled.binaryUrn, Field.plain])
  | numeric op left right =>
    simp only [compile, Compiled.numeric, bind_eq_ok, pure_eq_ok] at h
    obtain ⟨a, -, b, -, type, -, _, -, rfl⟩ := h
    exact hput (by simp [Compiled.binaryUrn])
  | unary op operand =>
    simp only [compile, Compiled.unary, bind_eq_ok, pure_eq_ok] at h
    obtain ⟨a, -, _, -, rfl⟩ := h
    exact hput (by simp)
  | nvl source alternative ih =>
    simp only [compile, Compiled.nvl, throw_unless_eq_ok, bind_eq_ok, CompileError.within_eq_ok]
      at h
    obtain ⟨inner, hinner, other, -, -, type, -, h⟩ := h
    split at h
    · exact pure_eq_ok.mp h ▸ ih hinner
    · exact pure_eq_ok.mp h ▸ (ih hinner :)
  | selector choice whenTrue whenFalse =>
    simp only [compile, Compiled.selector, bind_eq_ok] at h
    obtain ⟨a, -, b, -, c, -, _, -, h⟩ := h
    split at h
    · cases h
    · obtain rfl := pure_eq_ok.mp h
      exact hput (by simp)

-- ---------------------------------------------------------------------------
-- Filters
-- ---------------------------------------------------------------------------

/-- Whether a filter checks the fields that it gives. The others leave the URNs
as they are. -/
def Filter.checksNames : Filter → Bool
  | .project _ | .override .. => true
  | _ => false

namespace Filter

variable {filter : Filter} {filters : List Filter} {input out : Rowset}

theorem apply_named (hf : filter.checksNames = true) (h : filter.apply input = .ok out) :
    Field.Named out.fields := by
  cases filter with
  | project columns =>
    simp only [apply, Rowset.project, bind_eq_ok, QueryError.compiling_eq_ok, pure_eq_ok] at h
    obtain ⟨compiled, -, _, hvalid, rfl⟩ := h
    exact Field.validate_eq_ok.mp hvalid
  | override target change =>
    simp only [apply, Rowset.override, bind_eq_ok, QueryError.compiling_eq_ok, pure_eq_ok] at h
    obtain ⟨index, -, _, hvalid, rfl⟩ := h
    exact Field.validate_eq_ok.mp hvalid
  | _ => cases hf

theorem apply_urns (hf : filter.checksNames = false) (h : filter.apply input = .ok out) :
    out.fields.map (·.urn) = input.fields.map (·.urn) := by
  cases filter with
  | window range =>
    cases h
    rfl
  | align grid =>
    obtain ⟨single, hsingle, rfl⟩ := map_eq_ok.mp h
    rw [(alignSingle_eq_ok hsingle).1]
    rfl
  | gapFill fill =>
    simp only [apply, Rowset.gapFill, bind_eq_ok, throw_unless_eq_ok, pure_eq_ok,
      QueryError.compiling_eq_ok, Rowset.singleField_eq_ok] at h
    obtain ⟨field, hfield, -, rfl⟩ := h
    rw [hfield]
  | delta =>
    obtain ⟨field, ⟨hfield, -⟩, rfl⟩ := Rowset.delta_eq_ok h
    rw [hfield]
  | rate =>
    obtain ⟨field, ⟨hfield, -⟩, rfl⟩ := Rowset.rate_eq_ok h
    rw [hfield]
    rfl
  | counterDelta maximum =>
    obtain ⟨field, coerced, ⟨hfield, -⟩, -, rfl⟩ := Rowset.counterDelta_eq_ok h
    rw [hfield]
  | keepWhere predicate =>
    simp only [apply, Rowset.keepWhere, bind_eq_ok, throw_unless_eq_ok, pure_eq_ok] at h
    obtain ⟨compiled, -, -, rfl⟩ := h
    rfl
  | project | override => cases hf

theorem apply_named_iff (h : filter.apply input = .ok out) :
    Field.Named out.fields ↔ filter.checksNames = true ∨ Field.Named input.fields := by
  cases hf : filter.checksNames with
  | true => exact iff_of_true (apply_named hf h) (.inl rfl)
  | false => simpa using Field.named_congr (apply_urns hf h)

theorem apply_distinct (hd : (input.fields.map (·.urn)).Nodup) (h : filter.apply input = .ok out) :
    (out.fields.map (·.urn)).Nodup := by
  cases hf : filter.checksNames with
  | true => exact (apply_named hf h).distinct
  | false => rwa [apply_urns hf h]

theorem applyAll_names (hd : (input.fields.map (·.urn)).Nodup)
    (h : applyAll filters input = .ok out) :
    (out.fields.map (·.urn)).Nodup ∧
      (Field.Named out.fields ↔ filters.any checksNames = true ∨ Field.Named input.fields) := by
  induction filters generalizing input with
  | nil =>
    cases h
    simpa using hd
  | cons filter rest ih =>
    simp only [applyAll, applyStaged, bind_eq_ok, QueryError.within_eq_ok] at h
    obtain ⟨applied, happlied, h⟩ := h
    obtain ⟨hdistinct, hnamed⟩ := ih (apply_distinct hd happlied) h
    refine ⟨hdistinct, ?_⟩
    rw [hnamed, apply_named_iff happlied, List.any_cons, Bool.or_eq_true]
    tauto

end Filter

-- ---------------------------------------------------------------------------
-- Queries
-- ---------------------------------------------------------------------------

theorem Rowset.reduceAligned_urn {template : Field} {singles : List SingleRowset} {out : Rowset}
    (h : reduceAligned reduction template singles = .ok out) :
    ∃ field, out.fields = [field] ∧ field.urn = template.urn := by
  cases singles with
  | nil => cases h
  | cons first rest =>
    simp only [reduceAligned, bind_eq_ok] at h
    obtain ⟨_, -, h⟩ := h
    split at h
    · obtain rfl := pure_eq_ok.mp h
      exact ⟨_, rfl, rfl⟩
    · obtain rfl := pure_eq_ok.mp h
      exact ⟨_, rfl, rfl⟩

namespace Source

/-- Whether the URNs that the result of a source has are checked, or else the one
that it was given is not blank. -/
def namesResult : Source → Bool
  | .rows .. | .join .. => true
  | .series scanned _ => !scanned.field.hasBlankUrn
  | .external _ => false
  | .reduce _ _ _ [] fallback => !fallback.any Expr.hasBlankName
  | .reduce _ _ template (_ :: _) _ => !template.hasBlankUrn
  | .pipeline source filters => filters.any Filter.checksNames || source.namesResult

variable {source : Source} {rowset : Rowset} {range : TimeRange}

theorem execute_reduce_field
    (h : (Source.reduce reduction grid template inputs fallback).execute range = .ok rowset) :
    ∃ field, rowset.fields = [field] ∧
      field.hasBlankUrn = !(Source.reduce reduction grid template inputs fallback).namesResult := by
  cases inputs with
  | nil =>
    rw [execute, executeAll] at h
    cases fallback with
    | none => cases h
    | some expr =>
      simp only [Rowset.reduce, List.isEmpty_nil, if_true, Rowset.reduceNothing, bind_eq_ok,
        QueryError.compiling_eq_ok, CompileError.within_eq_ok, pure_eq_ok] at h
      obtain ⟨compiled, hcompiled, rfl⟩ := h
      exact ⟨_, rfl, by simp [namesResult, Expr.compile_hasBlankUrn hcompiled]⟩
  | cons first rest =>
    obtain ⟨executed, singles, -, -, h⟩ := (execute_reduce_eq_ok (List.cons_ne_nil _ _)).mp h
    obtain ⟨field, hfields, hurn⟩ := Rowset.reduceAligned_urn h
    exact ⟨field, hfields, by simp [namesResult, Field.hasBlankUrn, hurn]⟩

theorem execute_names (hl : source.Library) (h : source.execute range = .ok rowset) :
    (rowset.fields.map (·.urn)).Nodup ∧
      (Field.Named rowset.fields ↔ source.namesResult = true) := by
  induction hl generalizing rowset with
  | rows =>
    simp only [execute, Rowset.ofRows, bind_eq_ok, QueryError.compiling_eq_ok, pure_eq_ok] at h
    obtain ⟨_, hvalid, rfl⟩ := h
    have hnamed := Field.validate_eq_ok.mp hvalid
    exact ⟨hnamed.distinct, iff_of_true hnamed rfl⟩
  | series =>
    cases h
    exact ⟨by simp [Rowset.ofSeries], by simp [Rowset.ofSeries, Field.named_one, namesResult]⟩
  | join =>
    obtain ⟨-, inputs, -, hjoin⟩ := execute_join_eq_ok.mp h
    obtain ⟨hvalid, rfl⟩ := Rowset.join_eq_ok.mp hjoin
    have hnamed := Field.validate_eq_ok.mp hvalid
    exact ⟨hnamed.distinct, iff_of_true hnamed rfl⟩
  | reduce =>
    obtain ⟨field, hfields, hblank⟩ := execute_reduce_field h
    rw [hfields, Field.named_one, hblank]
    exact ⟨by simp, by simp⟩
  | pipeline _ ih =>
    rw [execute_pipeline, bind_eq_ok] at h
    obtain ⟨input, hinput, hout⟩ := h
    obtain ⟨hdistinct, hnamed⟩ := ih hinput
    obtain ⟨hdistinct, hout⟩ := Filter.applyAll_names hdistinct hout
    exact ⟨hdistinct, by rw [hout, hnamed, namesResult, Bool.or_eq_true]⟩

/-- No query of the library tells a URN twice, and the fields that it tells are
valid where no blank URN that it was given is told unchecked. -/
theorem execute_valid_iff (hl : source.Library) (h : source.execute range = .ok rowset) :
    (rowset.fields.map (·.urn)).Nodup ∧
      (Field.validate rowset.fields = .ok () ↔ ∀ field ∈ rowset.fields, field.hasBlankUrn = false) ∧
      (Field.validate rowset.fields = .ok () ↔ source.namesResult = true) := by
  obtain ⟨hdistinct, hnamed⟩ := execute_names hl h
  rw [Field.validate_eq_ok]
  exact ⟨hdistinct, ⟨Field.Named.filled, fun hfilled => ⟨hfilled, hdistinct⟩⟩, hnamed⟩

def ofCreated (field : Field) : Except StorageError Source := do
  let store ← Store.empty.create field
  return .series (store.read (← store.require field.urn)) .all

theorem renamed_series_valid :
    ∃ source rowset, ofCreated (.plain "" .integer true) = .ok source ∧
      (Source.pipeline source [.override "" ⟨some "cpu", none, .empty⟩, .delta]).execute .all =
        .ok rowset ∧
      (rowset.fields.map (·.urn)).Nodup ∧
      (Field.validate rowset.fields = .ok () ↔
        ∀ field ∈ rowset.fields, field.hasBlankUrn = false) ∧
      (Field.validate rowset.fields = .ok () ↔
        (Source.pipeline source [.override "" ⟨some "cpu", none, .empty⟩, .delta]).namesResult =
          true) := by
  obtain ⟨rowset, hrowset⟩ : ∃ rowset, (Source.pipeline
      (.series (.empty (.plain "" .integer true)) .all)
      [.override "" ⟨some "cpu", none, .empty⟩, .delta]).execute .all = .ok rowset := ⟨_, rfl⟩
  exact ⟨_, rowset, rfl, hrowset, execute_valid_iff (.pipeline .series) hrowset⟩

/-- A created series, the template of a reduction and the constant of a fallback
keep a blank URN, although such a field is refused where fields are checked. -/
theorem blank_urns_executed :
    (∃ source rowset, ofCreated (.plain " " .integer true) = .ok source ∧
      source.execute .all = .ok rowset ∧
      Field.validate rowset.fields = .error (.blankUrn .integer)) ∧
    (∃ rowset, (Source.reduce .sum minutes (.plain "" .integer true)
        [.rows [.plain "a" .integer true] []] none).execute .all = .ok rowset ∧
      Field.validate rowset.fields = .error (.blankUrn .integer)) ∧
    ∃ rowset, (Source.reduce .sum minutes (.plain "total" .integer true) []
        (some (.constant (.plain "" .integer true) (.integer 0)))).execute .all = .ok rowset ∧
      Field.validate rowset.fields = .error (.blankUrn .integer) :=
  ⟨⟨_, _, rfl, rfl, rfl⟩, ⟨_, rfl, rfl⟩, _, rfl, rfl⟩

end Source

end SeriesQuery
