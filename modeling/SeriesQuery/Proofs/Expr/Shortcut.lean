import SeriesQuery.Proofs.Expr.Agreement

/-!
# The shortcut of a required source

Where the source of an `nvl` is required, compiling it gives the source
itself: neither the node nor its alternative is left to evaluate. Compiling
without that shortcut finds the same errors and gives an expression with the
same field, and on rows that conform to the input fields the two expressions
answer alike. What carries the proof is that a required source is never null on
such a row, for the whole tree below it (`Expr.compile_sound`).
-/

namespace SeriesQuery

namespace Compiled

/-- The source, or the alternative where the source is null, whether or not
the source can be null. -/
def plainNvl (source alternative : Compiled) : Except CompileError Compiled := do
  let urn := "nvl(" ++ source.field.urn ++ ", " ++ alternative.field.urn ++ ")"
  if !alternative.field.required then
    throw (.context urn (.operandNotRequired alternative.field.urn))
  let type ← CompileError.within urn (sameType source alternative)
  return ⟨source.field.retype type true, fun row => do
    match ← source.eval row with
    | .null => alternative.eval row
    | value => return value⟩

end Compiled

/-- Compiles an expression with a builder of one's own for `nvl`. -/
def Expr.compileWith (nvl : Compiled → Compiled → Except CompileError Compiled)
    (fields : List Field) : Expr → Except CompileError Compiled
  | .constant field value => Compiled.constant field value
  | .reference urn => Compiled.reference fields urn
  | .cast source target => do
    let source ← CompileError.within "cast source" (source.compileWith nvl fields)
    Compiled.cast source target
  | .condition op left right => do
    let left ← CompileError.within ("left operand of " ++ op.symbol) (left.compileWith nvl fields)
    let right ←
      CompileError.within ("right operand of " ++ op.symbol) (right.compileWith nvl fields)
    Compiled.condition op left right
  | .logical op left right => do
    let left ← CompileError.within ("left operand of " ++ op.symbol) (left.compileWith nvl fields)
    let right ←
      CompileError.within ("right operand of " ++ op.symbol) (right.compileWith nvl fields)
    Compiled.logical op left right
  | .numeric op left right => do
    let left ← CompileError.within ("left operand of " ++ op.symbol) (left.compileWith nvl fields)
    let right ←
      CompileError.within ("right operand of " ++ op.symbol) (right.compileWith nvl fields)
    Compiled.numeric op left right
  | .unary op operand => do
    let operand ← CompileError.within ("operand of " ++ op.name) (operand.compileWith nvl fields)
    Compiled.unary op operand
  | .nvl source alternative => do
    let source ← CompileError.within "nvl source" (source.compileWith nvl fields)
    let alternative ← CompileError.within "nvl alternative" (alternative.compileWith nvl fields)
    nvl source alternative
  | .selector choice whenTrue whenFalse => do
    let choice ← CompileError.within "selector" (choice.compileWith nvl fields)
    let whenTrue ← CompileError.within "true branch" (whenTrue.compileWith nvl fields)
    let whenFalse ← CompileError.within "false branch" (whenFalse.compileWith nvl fields)
    Compiled.selector choice whenTrue whenFalse

theorem Expr.compileWith_nvl (expr : Expr) :
    expr.compileWith Compiled.nvl fields = expr.compile fields := by
  induction expr <;> simp only [compileWith, compile, *]

def Expr.compilePlain (fields : List Field) (expr : Expr) : Except CompileError Compiled :=
  expr.compileWith Compiled.plainNvl fields

namespace Compiled

abbrev AgreeOn (fields : List Field) : Compiled → Compiled → Prop :=
  Agree fun r s => r = s ∧ Row.Conforms fields r

variable {fields : List Field} {source source' alternative alternative' : Compiled}

theorem plainNvl_agree (hsound : source.Sound fields) (hs : source.AgreeOn fields source')
    (ha : alternative.AgreeOn fields alternative') :
    Alike (AgreeOn fields) (nvl source alternative) (plainNvl source' alternative') := by
  obtain ⟨sourceEval', rfl, hsource⟩ := hs.exists_eval
  obtain ⟨alternativeEval', rfl, halternative⟩ := ha.exists_eval
  simp only [nvl, plainNvl]
  split
  · exact .error _
  · refine Alike.bind_same fun type htype => ?_
    obtain ⟨rfl, -⟩ := sameType_eq_ok.mp (CompileError.within_eq_ok.mp htype)
    split
    · next hrequired =>
      refine .ok ⟨by rw [Field.retype, ← hrequired], fun r s hrs => ?_⟩
      have hadmits := hsound r hrs.2
      simp only [← hsource r s hrs]
      cases hv : source.eval r with
      | error e => rfl
      | ok v =>
        cases v with
        | null => simp [hv, Field.admits_null, hrequired] at hadmits
        | _ => rfl
    · refine .ok ⟨rfl, fun r s hrs => ?_⟩
      simp only [← hsource r s hrs]
      refine bind_congr_of_ok fun v _ => ?_
      cases v with
      | null => exact halternative r s hrs
      | _ => rfl

end Compiled

open Compiled in
theorem Expr.compile_alike_plain (fields : List Field) (expr : Expr) :
    Alike (AgreeOn fields) (expr.compile fields) (expr.compilePlain fields) := by
  have hsame : ∀ r s : Row, r = s ∧ r.Conforms fields → r = s := fun _ _ h => h.1
  induction expr with
  | constant field value =>
    change Alike _ (Compiled.constant field value) (Compiled.constant field value)
    cases Compiled.constant field value with
    | error e => exact .error e
    | ok c => exact .ok (Agree.refl hsame c)
  | reference urn =>
    change Alike _ (Compiled.reference fields urn) (Compiled.reference fields urn)
    cases Compiled.reference fields urn with
    | error e => exact .error e
    | ok c => exact .ok (Agree.refl hsame c)
  | cast source target ih => exact ih.within.bind fun s s' hs => cast_agree hs
  | condition op left right ihl ihr =>
    exact ihl.within.bind fun l l' hl => ihr.within.bind fun r r' hr =>
      condition_agree hl (hr.mono fun _ _ h => h.1)
  | logical op left right ihl ihr =>
    exact ihl.within.bind fun l l' hl => ihr.within.bind fun r r' hr =>
      logical_agree hl (hr.mono fun _ _ h => h.1)
  | numeric op left right ihl ihr =>
    exact ihl.within.bind fun l l' hl => ihr.within.bind fun r r' hr =>
      numeric_agree hl (hr.mono fun _ _ h => h.1)
  | unary op operand ih => exact ih.within.bind fun s s' hs => unary_agree hs
  | nvl source alternative ihs iha =>
    -- the two builders differ here, and agree because the source is sound
    have hsource := ihs.and_left fun _ hs => compile_sound hs
    exact hsource.within.bind fun s s' hs => iha.within.bind fun a a' ha =>
      plainNvl_agree hs.1 hs.2 ha
  | selector choice whenTrue whenFalse ihc iht ihf =>
    exact ihc.within.bind fun c c' hc => iht.within.bind fun t t' ht => ihf.within.bind
      fun f f' hf => selector_agree hc (ht.mono fun _ _ h => h.1) (hf.mono fun _ _ h => h.1)

/-- Compiling without the shortcut is not to be told from compiling: it fails
with the same error, or both give a field and an evaluation, the fields are
equal, and every row that conforms to the input fields gets the same value or
the same error. -/
theorem Expr.nvl_shortcut_unobservable (fields : List Field) (expr : Expr) :
    (∃ e, expr.compile fields = .error e ∧ expr.compilePlain fields = .error e) ∨
      ∃ c p, expr.compile fields = .ok c ∧ expr.compilePlain fields = .ok p ∧
        c.field = p.field ∧ ∀ row : Row, row.Conforms fields → c.eval row = p.eval row := by
  have h := expr.compile_alike_plain fields
  generalize expr.compile fields = x, expr.compilePlain fields = y at h
  cases h with
  | error e => exact .inl ⟨e, rfl, rfl⟩
  | ok h => exact .inr ⟨_, _, rfl, rfl, h.field_eq, fun row hrow => h.eval_eq row row ⟨rfl, hrow⟩⟩

end SeriesQuery
