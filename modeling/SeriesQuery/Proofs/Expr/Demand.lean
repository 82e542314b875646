import SeriesQuery.Proofs.Expr.Agreement

/-!
# What the evaluation of a row reaches

A place in an expression is a path of frames, each a node with one operand left
out. A frame demands its operand on a row, or it does not: a selector demands
the branch it picks, `and` and `or` demand the right operand where the left one
does not decide, `nvl` demands the alternative where the source is null, and a
right operand is not demanded where the left one fails. Evaluation reaches a
place if every frame on the way demands it.

What stands at a place that a row does not reach has no influence on the row:
only its field counts. What stands at a place that is reached has been
evaluated, and with a value if the whole has one.
-/

namespace SeriesQuery

-- ---------------------------------------------------------------------------
-- Places
-- ---------------------------------------------------------------------------

/-- A node with one operand left out. -/
inductive Frame where
  | cast (target : DataType)
  | conditionLeft (op : Comparison) (right : Expr)
  | conditionRight (op : Comparison) (left : Expr)
  | logicalLeft (op : LogicalOp) (right : Expr)
  | logicalRight (op : LogicalOp) (left : Expr)
  | numericLeft (op : NumericOp) (right : Expr)
  | numericRight (op : NumericOp) (left : Expr)
  | unary (op : UnaryOp)
  | nvlSource (alternative : Expr)
  | nvlAlternative (source : Expr)
  | selectorChoice (whenTrue whenFalse : Expr)
  | selectorTrue (choice whenFalse : Expr)
  | selectorFalse (choice whenTrue : Expr)

def Frame.plug : Frame → Expr → Expr
  | .cast target, e => .cast e target
  | .conditionLeft op right, e => .condition op e right
  | .conditionRight op left, e => .condition op left e
  | .logicalLeft op right, e => .logical op e right
  | .logicalRight op left, e => .logical op left e
  | .numericLeft op right, e => .numeric op e right
  | .numericRight op left, e => .numeric op left e
  | .unary op, e => .unary op e
  | .nvlSource alternative, e => .nvl e alternative
  | .nvlAlternative source, e => .nvl source e
  | .selectorChoice whenTrue whenFalse, e => .selector e whenTrue whenFalse
  | .selectorTrue choice whenFalse, e => .selector choice e whenFalse
  | .selectorFalse choice whenTrue, e => .selector choice whenTrue e

/-- The expression with a part at a place; the outermost frame comes first. -/
def Expr.plug (path : List Frame) (part : Expr) : Expr :=
  path.foldr Frame.plug part

-- ---------------------------------------------------------------------------
-- Demand
-- ---------------------------------------------------------------------------

/-- On the row, evaluating the node evaluates the operand that is left out. -/
def Frame.Demands (fields : List Field) (row : Row) : Frame → Prop
  | .conditionRight _ left | .numericRight _ left => ∃ value, left.Gives fields row value
  | .logicalRight op left => left.Gives fields row (.boolean !op.deciding)
  | .nvlAlternative source => source.Gives fields row .null
  | .selectorTrue choice _ => choice.Gives fields row (.boolean true)
  | .selectorFalse choice _ => choice.Gives fields row (.boolean false)
  | .cast _ | .conditionLeft .. | .logicalLeft .. | .numericLeft .. | .unary _ | .nvlSource _
  | .selectorChoice .. => True

/-- On the row, evaluating the whole evaluates what stands at the place. -/
def Reached (fields : List Field) (row : Row) (path : List Frame) : Prop :=
  ∀ frame ∈ path, frame.Demands fields row

theorem reached_cons : Reached fields row (frame :: path) ↔
    frame.Demands fields row ∧ Reached fields row path :=
  List.forall_mem_cons

-- ---------------------------------------------------------------------------
-- What is reached returns
-- ---------------------------------------------------------------------------

section
variable {fields : List Field} {row : Row} {part : Expr}

theorem Frame.exists_gives (frame : Frame) (hrow : row.Conforms fields)
    (h : (frame.plug part).Gives fields row v) (hdemands : frame.Demands fields row) :
    ∃ w, part.Gives fields row w := by
  cases frame with
  | cast target =>
    obtain ⟨w, hw, -⟩ := h.cast
    exact ⟨w, hw⟩
  | conditionLeft op right =>
    obtain ⟨w, hw, -⟩ := h.condition
    exact ⟨w, hw⟩
  | conditionRight op left =>
    obtain ⟨-, -, w, hw, -⟩ := h.condition
    exact ⟨w, hw⟩
  | logicalLeft op right =>
    obtain ⟨t, ht, -⟩ := h.logical
    exact ⟨.boolean t, ht⟩
  | logicalRight op left =>
    obtain ⟨t, ht, hopen⟩ := h.logical
    cases hdemands.unique ht
    rw [if_neg (by cases op <;> decide)] at hopen
    obtain ⟨u, hu, -⟩ := hopen
    exact ⟨.boolean u, hu⟩
  | numericLeft op right =>
    obtain ⟨w, hw, -⟩ := h.numeric
    exact ⟨w, hw⟩
  | numericRight op left =>
    obtain ⟨-, -, w, hw, -⟩ := h.numeric
    exact ⟨w, hw⟩
  | unary op =>
    obtain ⟨w, hw, -⟩ := h.unary
    exact ⟨w, hw⟩
  | nvlSource alternative =>
    obtain ⟨w, hw, -⟩ := h.nvl hrow
    exact ⟨w, hw⟩
  | nvlAlternative source =>
    obtain ⟨w, hw, hvalue⟩ := h.nvl hrow
    cases hdemands.unique hw
    exact ⟨v, hvalue⟩
  | selectorChoice whenTrue whenFalse =>
    obtain ⟨t, ht, -⟩ := h.selector
    exact ⟨.boolean t, ht⟩
  | selectorTrue choice whenFalse =>
    obtain ⟨t, ht, hvalue⟩ := h.selector
    cases hdemands.unique ht
    exact ⟨v, hvalue⟩
  | selectorFalse choice whenTrue =>
    obtain ⟨t, ht, hvalue⟩ := h.selector
    cases hdemands.unique ht
    exact ⟨v, hvalue⟩

theorem Expr.exists_gives_of_reached {path : List Frame} (hrow : row.Conforms fields)
    (h : (Expr.plug path part).Gives fields row v) (hreached : Reached fields row path) :
    ∃ w, part.Gives fields row w := by
  induction path generalizing v with
  | nil => exact ⟨v, h⟩
  | cons frame rest ih =>
    obtain ⟨hframe, hrest⟩ := reached_cons.mp hreached
    obtain ⟨w, hw⟩ := frame.exists_gives hrow h hframe
    exact ih hw hrest

end

-- ---------------------------------------------------------------------------
-- What is not reached has no influence
-- ---------------------------------------------------------------------------

section
open Compiled

variable {fields : List Field} {rows : Row → Row → Prop} {part other : Expr}

theorem Frame.plug_alike (hsame : ∀ r s, rows r s → r = s) (frame : Frame)
    (h : Alike (Agree fun r s => rows r s ∧ frame.Demands fields r)
      (part.compile fields) (other.compile fields)) :
    Alike (Agree rows) ((frame.plug part).compile fields) ((frame.plug other).compile fields) := by
  -- the other operands are the same on both sides
  have hrefl {P : Row → Prop} (c : Compiled) : c.Agree (fun r s => rows r s ∧ P r) c :=
    Agree.refl (fun r s hrs => hsame r s hrs.1) c
  have hbefore {e : Expr} {place : String} {c : Compiled}
      (hc : CompileError.within place (e.compile fields) = .ok c) : e.compile fields = .ok c :=
    CompileError.within_eq_ok.mp hc
  cases frame with
  | cast target =>
    refine h.within.bind fun p q hpq => ?_
    exact cast_agree (hpq.mono fun _ _ hrs => ⟨hrs, trivial⟩)
  | conditionLeft op right =>
    refine h.within.bind fun p q hpq => Alike.bind_same fun r _ => ?_
    exact condition_agree (hpq.mono fun _ _ hrs => ⟨hrs, trivial⟩) (hrefl r)
  | conditionRight op left =>
    refine Alike.bind_same fun l hl => h.within.bind fun p q hpq => ?_
    exact condition_agree (Agree.refl hsame l) (hpq.mono fun _ _ ⟨hrs, v, hv⟩ =>
      ⟨hrs, v, l, hbefore hl, hv⟩)
  | logicalLeft op right =>
    refine h.within.bind fun p q hpq => Alike.bind_same fun r _ => ?_
    exact logical_agree (hpq.mono fun _ _ hrs => ⟨hrs, trivial⟩) (hrefl r)
  | logicalRight op left =>
    refine Alike.bind_same fun l hl => h.within.bind fun p q hpq => ?_
    exact logical_agree (Agree.refl hsame l) (hpq.mono fun _ _ ⟨hrs, ht⟩ =>
      ⟨hrs, l, hbefore hl, ht⟩)
  | numericLeft op right =>
    refine h.within.bind fun p q hpq => Alike.bind_same fun r _ => ?_
    exact numeric_agree (hpq.mono fun _ _ hrs => ⟨hrs, trivial⟩) (hrefl r)
  | numericRight op left =>
    refine Alike.bind_same fun l hl => h.within.bind fun p q hpq => ?_
    exact numeric_agree (Agree.refl hsame l) (hpq.mono fun _ _ ⟨hrs, v, hv⟩ =>
      ⟨hrs, v, l, hbefore hl, hv⟩)
  | unary op =>
    refine h.within.bind fun p q hpq => ?_
    exact unary_agree (hpq.mono fun _ _ hrs => ⟨hrs, trivial⟩)
  | nvlSource alternative =>
    refine h.within.bind fun p q hpq => Alike.bind_same fun a _ => ?_
    exact nvl_agree (hpq.mono fun _ _ hrs => ⟨hrs, trivial⟩) (hrefl a)
  | nvlAlternative source =>
    refine Alike.bind_same fun s hs => h.within.bind fun p q hpq => ?_
    exact nvl_agree (Agree.refl hsame s) (hpq.mono fun _ _ ⟨hrs, hnull⟩ =>
      ⟨hrs, s, hbefore hs, hnull⟩)
  | selectorChoice whenTrue whenFalse =>
    refine h.within.bind fun p q hpq => Alike.bind_same fun t _ => Alike.bind_same fun f _ => ?_
    exact selector_agree (hpq.mono fun _ _ hrs => ⟨hrs, trivial⟩) (hrefl t) (hrefl f)
  | selectorTrue choice whenFalse =>
    refine Alike.bind_same fun c hc => h.within.bind fun p q hpq => Alike.bind_same fun f _ => ?_
    exact selector_agree (Agree.refl hsame c) (hpq.mono fun _ _ ⟨hrs, ht⟩ =>
      ⟨hrs, c, hbefore hc, ht⟩) (hrefl f)
  | selectorFalse choice whenTrue =>
    refine Alike.bind_same fun c hc => Alike.bind_same fun t _ => h.within.bind fun p q hpq => ?_
    exact selector_agree (Agree.refl hsame c) (hrefl t) (hpq.mono fun _ _ ⟨hrs, hf⟩ =>
      ⟨hrs, c, hbefore hc, hf⟩)

theorem Expr.plug_alike (hsame : ∀ r s, rows r s → r = s) (path : List Frame)
    (h : Alike (Agree fun r s => rows r s ∧ Reached fields r path)
      (part.compile fields) (other.compile fields)) :
    Alike (Agree rows) ((Expr.plug path part).compile fields)
      ((Expr.plug path other).compile fields) := by
  -- the rows that count get fewer with each frame that demands its operand
  induction path generalizing rows with
  | nil => exact h.mono fun c d hcd => hcd.mono fun _ _ hrs => ⟨hrs, nofun⟩
  | cons frame rest ih =>
    refine frame.plug_alike hsame (ih (fun r s hrs => hsame r s hrs.1) (h.mono fun c d hcd => ?_))
    exact hcd.mono fun _ _ hrs => ⟨hrs.1.1, reached_cons.mpr ⟨hrs.1.2, hrs.2⟩⟩

end

/-- Where a place is not reached, a part is as good as any other that compiles
to the same field: with it the whole compiles to the same field, and to the row
it answers with the same value or the same error. -/
theorem Expr.unreached_without_influence {path : List Frame} {part other : Expr}
    (hwhole : (Expr.plug path part).compile fields = .ok whole)
    (hpart : part.compile fields = .ok compiled) (hother : other.compile fields = .ok compiled')
    (hfield : compiled'.field = compiled.field) :
    ∃ whole', (Expr.plug path other).compile fields = .ok whole' ∧ whole'.field = whole.field ∧
      ∀ row : Row, ¬ Reached fields row path → whole'.eval row = whole.eval row := by
  have hparts : Alike (Compiled.Agree fun r s => (r = s ∧ ¬ Reached fields r path) ∧
      Reached fields r path) (part.compile fields) (other.compile fields) := by
    rw [hpart, hother]
    exact .ok ⟨hfield.symm, fun r s hrs => absurd hrs.2 hrs.1.2⟩
  have hwholes := Expr.plug_alike (fun r s hrs => hrs.1) path hparts
  obtain ⟨whole', hwhole', hagree⟩ := hwholes.exists_of_ok hwhole
  refine ⟨whole', hwhole', hagree.field_eq.symm, fun row hunreached => ?_⟩
  exact (hagree.eval_eq row row ⟨rfl, hunreached⟩).symm

def Expr.quotientBy (k : Int64) : Expr :=
  .numeric .divide (.reference "a") (.constant (.plain "k" .integer true) (.integer k))

def Expr.unflagged : List Frame :=
  [.numericLeft .add (.reference "a"), .selectorFalse (.reference "flag") (.reference "a")]

theorem Expr.unpicked_quotient_without_influence :
    ∃ whole whole',
      (Expr.plug unflagged (quotientBy 0)).compile
        [.plain "a" .integer true, .plain "flag" .boolean true] = .ok whole ∧
      (Expr.plug unflagged (quotientBy 1)).compile
        [.plain "a" .integer true, .plain "flag" .boolean true] = .ok whole' ∧
      whole'.field = whole.field ∧
      whole'.eval [.integer 7, .boolean true] = whole.eval [.integer 7, .boolean true] ∧
      whole.eval [.integer 7, .boolean true] = .ok (.integer 14) := by
  have hwhole : (Expr.plug unflagged (quotientBy 0)).compile
      [.plain "a" .integer true, .plain "flag" .boolean true] = .ok _ := rfl
  have hother : (quotientBy 1).compile
      [.plain "a" .integer true, .plain "flag" .boolean true] = .ok _ := rfl
  obtain ⟨whole', hwhole', hfield, heval⟩ :=
    Expr.unreached_without_influence hwhole rfl hother rfl
  refine ⟨_, whole', hwhole, hwhole', hfield, heval _ fun hreached => ?_, rfl⟩
  -- the row picks the other branch
  have hpicked : Expr.Gives [.plain "a" .integer true, .plain "flag" .boolean true]
      [.integer 7, .boolean true] (.reference "flag") (.boolean true) := ⟨_, rfl, rfl⟩
  cases hpicked.unique (reached_cons.mp (reached_cons.mp hreached).2).1

end SeriesQuery
