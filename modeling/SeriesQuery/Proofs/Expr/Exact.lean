import SeriesQuery.Proofs.Expr.Arithmetic
import SeriesQuery.Proofs.Expr.Demand

/-!
# Integer expressions are exact

An integral expression is built from integer constants and columns by
arithmetic, `abs`, negation, `nvl` and selectors, whose selectors compare such
expressions and join the comparisons with `and` and `or`. `Expr.exact` is its
value over whole numbers of any size. Evaluating it with 64 bits can fail, but
what it returns is that value, for the whole and for every part that evaluation
reaches: an overflow below is never lost on its way up.
-/

namespace SeriesQuery

-- ---------------------------------------------------------------------------
-- Values over whole numbers
-- ---------------------------------------------------------------------------

/-- What an integral expression is worth. -/
inductive Exact where
  | null
  | truth (value : Bool)
  | number (n : Int)
deriving DecidableEq, Repr

def Value.exact : Value → Option Exact
  | .null => some .null
  | .boolean value => some (.truth value)
  | .integer i => some (.number i.toInt)
  | .decimal _ | .string _ | .timestamp _ => none

def Comparison.exact (op : Comparison) (m n : Int) : Bool :=
  match op with
  | .equals => m = n
  | .notEquals => m ≠ n
  | .greater => n < m
  | .greaterOrEqual => n ≤ m
  | .less => m < n
  | .lessOrEqual => m ≤ n

namespace Exact

def compare (op : Comparison) : Exact → Exact → Option Exact
  | .number m, .number n => some (.truth (op.exact m n))
  | .null, _ | _, .null => some (.truth false)
  | _, _ => none

def compute (op : NumericOp) : Exact → Exact → Option Exact
  | .number m, .number n => if op.DividesByZero n then none else some (.number (op.exact m n))
  | .null, _ | _, .null => some .null
  | _, _ => none

def apply (op : UnaryOp) : Exact → Option Exact
  | .number n =>
    match op with
    | .abs => some (.number n.natAbs)
    | .negate => some (.number (-n))
    | _ => none
  | .null => some .null
  | .truth _ => none

end Exact

/-- The value of an integral expression over whole numbers of any size. It is
missing where a division by zero is reached, and for expressions that are not
integral. -/
def Expr.exact (fields : List Field) (row : Row) : Expr → Option Exact
  | .constant _ value => value.exact
  | .reference urn => do
    let index ← fields.findIdx? (·.urn = urn)
    let value ← row[index]?
    value.exact
  | .cast .. => none
  | .condition op left right => do
    let x ← left.exact fields row
    let y ← right.exact fields row
    Exact.compare op x y
  | .logical op left right => do
    match ← left.exact fields row with
    | .truth t => if t = op.deciding then return .truth t else right.exact fields row
    | _ => none
  | .numeric op left right => do
    let x ← left.exact fields row
    let y ← right.exact fields row
    Exact.compute op x y
  | .unary op operand => do
    let x ← operand.exact fields row
    Exact.apply op x
  | .nvl source alternative => do
    match ← source.exact fields row with
    | .null => alternative.exact fields row
    | x => return x
  | .selector choice whenTrue whenFalse => do
    match ← choice.exact fields row with
    | .truth t => if t then whenTrue.exact fields row else whenFalse.exact fields row
    | _ => none

/-- The expressions of integers, and the conditions on them. -/
inductive Expr.Integral (fields : List Field) : DataType → Expr → Prop
  | constant {field : Field} : field.dataType = .integer →
      Integral fields .integer (.constant field value)
  | reference {field : Field} : fields.find? (·.urn = urn) = some field →
      field.dataType = .integer → Integral fields .integer (.reference urn)
  | numeric : Integral fields .integer left → Integral fields .integer right →
      Integral fields .integer (.numeric op left right)
  | abs : Integral fields .integer operand → Integral fields .integer (.unary .abs operand)
  | negate : Integral fields .integer operand → Integral fields .integer (.unary .negate operand)
  | nvl : Integral fields .integer source → Integral fields .integer alternative →
      Integral fields .integer (.nvl source alternative)
  | selector : Integral fields .boolean choice → Integral fields .integer whenTrue →
      Integral fields .integer whenFalse →
      Integral fields .integer (.selector choice whenTrue whenFalse)
  | condition : Integral fields .integer left → Integral fields .integer right →
      Integral fields .boolean (.condition op left right)
  | logical : Integral fields .boolean left → Integral fields .boolean right →
      Integral fields .boolean (.logical op left right)

-- ---------------------------------------------------------------------------
-- Operators
-- ---------------------------------------------------------------------------

/-- The values that integral expressions of a type return. -/
inductive Value.Integral : DataType → Value → Prop
  | null : Integral .integer .null
  | integer (i : Int64) : Integral .integer (.integer i)
  | boolean (t : Bool) : Integral .boolean (.boolean t)

theorem Field.Admits.integral {field : Field} (h : field.Admits v)
    (htype : field.dataType = .integer) : v.Integral .integer := by
  rw [Field.admits_iff, htype] at h
  rcases h with ⟨rfl, -⟩ | h
  · exact .null
  · cases v <;> simp [Value.dataType?] at h
    exact .integer _

theorem Comparison.holds_compare {op : Comparison} {m n : Int} :
    op.holds (some (Ord.compare m n)) = op.exact m n := by
  rcases Int.lt_trichotomy m n with h | h | h
  · have hcompare : Ord.compare m n = .lt := Int.compare_eq_lt.mpr h
    cases op <;> simp [holds, exact, hcompare, bne, h, Int.le_of_lt h, Int.ne_of_lt h]
  · cases op <;> simp [holds, exact, h]
  · have hcompare : Ord.compare m n = .gt := Int.compare_eq_gt.mpr h
    cases op <;> simp [holds, exact, hcompare, bne, h, Int.le_of_lt h, Int.ne_of_gt h]

theorem NumericOp.exact_of_integer {op : NumericOp} {a b r : Int64} (h : op.integer a b = .ok r) :
    ¬ op.DividesByZero b.toInt ∧ r.toInt = op.exact a.toInt b.toInt := by
  rcases op.integer_cases a b with ⟨-, he⟩ | ⟨-, -, he⟩ | ⟨hzero, -, s, hs, hexact⟩
  · cases he.symm.trans h
  · cases he.symm.trans h
  · cases hs.symm.trans h
    exact ⟨hzero, hexact⟩

theorem UnaryOp.toInt_of_fit {op : UnaryOp} {i : Int64} (h : op.fit n = .ok i) : i.toInt = n := by
  unfold fit at h
  split at h
  · next hi => exact toInt_of_integer? (Except.ok.inj h ▸ hi)
  · cases h

theorem Value.exact_of_toInt (h : i.toInt = n) : (Value.integer i).exact = some (.number n) := by
  rw [exact, h]

namespace Exact

variable {a b v : Value}

theorem compare_returned {op : Comparison} (ha : a.Integral .integer) (hb : b.Integral .integer)
    (h : if a = .null ∨ b = .null then v = .boolean false
      else ∃ t, op.evaluate a b = .ok t ∧ v = .boolean t) :
    v.Integral .boolean ∧
      (do let x ← a.exact; let y ← b.exact; compare op x y) = v.exact := by
  cases ha with
  | null =>
    rw [if_pos (.inl rfl)] at h
    subst h
    cases hb <;> exact ⟨.boolean false, rfl⟩
  | integer i =>
    cases hb with
    | null =>
      rw [if_pos (.inr rfl)] at h
      subst h
      exact ⟨.boolean false, rfl⟩
    | integer j =>
      rw [if_neg (by simp)] at h
      obtain ⟨t, ht, rfl⟩ := h
      cases ht
      refine ⟨.boolean _, ?_⟩
      rw [Comparison.holds_compare]
      rfl

theorem compute_returned {op : NumericOp} (ha : a.Integral .integer) (hb : b.Integral .integer)
    (h : if a = .null ∨ b = .null then v = .null else op.evaluate a b = .ok v) :
    v.Integral .integer ∧
      (do let x ← a.exact; let y ← b.exact; compute op x y) = v.exact := by
  cases ha with
  | null =>
    rw [if_pos (.inl rfl)] at h
    subst h
    cases hb <;> exact ⟨.null, rfl⟩
  | integer i =>
    cases hb with
    | null =>
      rw [if_pos (.inr rfl)] at h
      subst h
      exact ⟨.null, rfl⟩
    | integer j =>
      rw [if_neg (by simp)] at h
      obtain ⟨k, hk, rfl⟩ := map_eq_ok.mp h
      obtain ⟨hzero, hexact⟩ := NumericOp.exact_of_integer hk
      rw [Value.exact_of_toInt hexact]
      exact ⟨.integer k, if_neg hzero⟩

theorem apply_returned {op : UnaryOp} (hop : op = .abs ∨ op = .negate) (ha : a.Integral .integer)
    (h : if a = .null then v = .null else op.evaluate a = .ok v) :
    v.Integral .integer ∧ (do let x ← a.exact; apply op x) = v.exact := by
  cases ha with
  | null =>
    rw [if_pos rfl] at h
    subst h
    exact ⟨.null, rfl⟩
  | integer i =>
    rw [if_neg (by simp)] at h
    obtain ⟨k, hk, rfl⟩ := map_eq_ok.mp h
    rcases hop with rfl | rfl
    all_goals
      rw [Value.exact_of_toInt (UnaryOp.toInt_of_fit hk)]
      exact ⟨.integer k, rfl⟩

end Exact

-- ---------------------------------------------------------------------------
-- Expressions
-- ---------------------------------------------------------------------------

theorem Expr.Integral.of_plug_frame {frame : Frame} {part : Expr}
    (h : Integral fields type (frame.plug part)) : ∃ type', Integral fields type' part := by
  cases frame <;> cases h <;> exact ⟨_, ‹_›⟩

theorem Expr.Integral.of_plug {path : List Frame} {part : Expr}
    (h : Integral fields type (Expr.plug path part)) : ∃ type', Integral fields type' part := by
  induction path generalizing type with
  | nil => exact ⟨type, h⟩
  | cons frame rest ih =>
    obtain ⟨_, hrest⟩ := h.of_plug_frame
    exact ih hrest

open Compiled in
theorem Expr.Integral.exact_of_gives {expr : Expr} {row : Row} (hexpr : Integral fields type expr)
    (h : expr.Gives fields row v) (hrow : row.Conforms fields) :
    v.Integral type ∧ expr.exact fields row = v.exact := by
  -- along the fragment: at each node the operands that returned are exact, and
  -- those that evaluation skipped are skipped by the exact value too
  induction hexpr generalizing v with
  | @constant value field htype =>
    obtain ⟨compiled, hc, hv⟩ := h
    obtain ⟨hfield, hreturns⟩ : _ ∧ compiled.eval row = _ := constant_returns hc (by simp [htype])
    cases hreturns.symm.trans hv
    have hadmits : compiled.field.Admits value := by
      simpa [hv] using compile_sound hc row hrow
    exact ⟨hadmits.integral (by rw [hfield, htype]), rfl⟩
  | @reference urn field hfound htype =>
    obtain ⟨compiled, hc, hv⟩ := h
    obtain ⟨index, value, hindex, hfield, hvalue, hreturns⟩ :=
      reference_returns hc hrow.length_eq
    cases hreturns.symm.trans hv
    have hadmits : compiled.field.Admits v := by
      simpa [hv] using compile_sound hc row hrow
    rw [List.find?_eq_bind_findIdx?_getElem?, hindex, Option.bind_some, hfield] at hfound
    cases hfound
    exact ⟨hadmits.integral htype, by simp [Expr.exact, hindex, hvalue]⟩
  | numeric _ _ ihl ihr =>
    obtain ⟨a, ha, b, hb, hvalue⟩ := h.numeric
    obtain ⟨hla, hleft⟩ := ihl ha
    obtain ⟨hrb, hright⟩ := ihr hb
    rw [exact, hleft, hright]
    exact Exact.compute_returned hla hrb hvalue
  | abs _ ih =>
    obtain ⟨a, ha, hvalue⟩ := h.unary
    obtain ⟨hintegral, hoperand⟩ := ih ha
    rw [exact, hoperand]
    exact Exact.apply_returned (.inl rfl) hintegral hvalue
  | negate _ ih =>
    obtain ⟨a, ha, hvalue⟩ := h.unary
    obtain ⟨hintegral, hoperand⟩ := ih ha
    rw [exact, hoperand]
    exact Exact.apply_returned (.inr rfl) hintegral hvalue
  | nvl _ _ ihs iha =>
    obtain ⟨w, hw, hvalue⟩ := h.nvl hrow
    obtain ⟨hintegral, hsource⟩ := ihs hw
    rw [exact, hsource]
    cases hintegral with
    | null =>
      rw [if_pos rfl] at hvalue
      exact iha hvalue
    | integer i =>
      rw [if_neg (by simp)] at hvalue
      subst hvalue
      exact ⟨.integer i, rfl⟩
  | selector _ _ _ ihc iht ihf =>
    obtain ⟨choice, hchoice, hvalue⟩ := h.selector
    obtain ⟨-, hpicks⟩ := ihc hchoice
    rw [exact, hpicks]
    cases choice with
    | true => exact iht hvalue
    | false => exact ihf hvalue
  | condition _ _ ihl ihr =>
    obtain ⟨a, ha, b, hb, hvalue⟩ := h.condition
    obtain ⟨hla, hleft⟩ := ihl ha
    obtain ⟨hrb, hright⟩ := ihr hb
    rw [exact, hleft, hright]
    exact Exact.compare_returned hla hrb hvalue
  | @logical left right op _ _ ihl ihr =>
    obtain ⟨t, ht, hvalue⟩ := h.logical
    obtain ⟨-, hleft⟩ := ihl ht
    rw [exact, hleft]
    by_cases hdecides : t = op.deciding
    · rw [if_pos hdecides] at hvalue
      subst hvalue
      exact ⟨.boolean t, if_pos hdecides⟩
    · rw [if_neg hdecides] at hvalue
      obtain ⟨u, hu, rfl⟩ := hvalue
      obtain ⟨-, hright⟩ := ihr hu
      exact ⟨.boolean u, (if_neg hdecides).trans hright⟩

theorem Value.Integral.exists_exact {value : Value} (h : value.Integral type) :
    ∃ x, value.exact = some x := by
  cases h <;> exact ⟨_, rfl⟩

/-- An integral expression never returns a wrong number: an integer that it
returns is its value over whole numbers, and so is what any part of it returns
that is reached on the way. -/
theorem Expr.eval_integral_exact {expr : Expr} {row : Row} (hexpr : Integral fields .integer expr)
    (h : expr.compile fields = .ok compiled) (hrow : row.Conforms fields)
    (hr : compiled.eval row = .ok (.integer r)) :
    expr.exact fields row = some (.number r.toInt) ∧
      ∀ path part, expr = Expr.plug path part → Reached fields row path →
        ∃ value x, part.Gives fields row value ∧ value.exact = some x ∧
          part.exact fields row = some x := by
  refine ⟨(hexpr.exact_of_gives ⟨compiled, h, hr⟩ hrow).2, ?_⟩
  rintro path part rfl hreached
  obtain ⟨value, hvalue⟩ := exists_gives_of_reached hrow ⟨compiled, h, hr⟩ hreached
  obtain ⟨type, hpart⟩ := hexpr.of_plug
  obtain ⟨hintegral, hexact⟩ := hpart.exact_of_gives hvalue hrow
  obtain ⟨x, hx⟩ := hintegral.exists_exact
  exact ⟨value, x, hvalue, hx, hexact.trans hx⟩

def Expr.ratioFields : List Field := [.plain "a" .integer true, .plain "b" .integer false]

def Expr.ratio : Expr := .numeric .divide (.reference "a") (.reference "b")

theorem Expr.eval_ratio_exact :
    ∃ compiled,
      (Expr.nvl ratio (.unary .negate (.reference "a"))).compile ratioFields = .ok compiled ∧
      compiled.eval [.integer Int64.minValue, .integer 2] = .ok (.integer (-4611686018427387904)) ∧
      (Expr.nvl ratio (.unary .negate (.reference "a"))).exact ratioFields
        [.integer Int64.minValue, .integer 2] = some (.number (-4611686018427387904)) ∧
      ∃ value x, ratio.Gives ratioFields [.integer Int64.minValue, .integer 2] value ∧
        value.exact = some x ∧
        ratio.exact ratioFields [.integer Int64.minValue, .integer 2] = some x := by
  obtain ⟨compiled, hc⟩ : ∃ compiled,
      (Expr.nvl ratio (.unary .negate (.reference "a"))).compile ratioFields = .ok compiled :=
    ⟨_, rfl⟩
  have hrow : Row.Conforms ratioFields [.integer Int64.minValue, .integer 2] :=
    .cons rfl (.cons rfl .nil)
  have hratio : Integral ratioFields .integer ratio :=
    .numeric (.reference rfl rfl) (.reference rfl rfl)
  have heval : compiled.eval [.integer Int64.minValue, .integer 2] =
      .ok (.integer (-4611686018427387904)) := by
    cases hc
    rfl
  obtain ⟨hexact, hparts⟩ :=
    Expr.eval_integral_exact (.nvl hratio (.negate (.reference rfl rfl))) hc hrow heval
  exact ⟨compiled, hc, heval, hexact,
    hparts [.nvlSource _] _ rfl (List.forall_mem_singleton.mpr trivial)⟩

end SeriesQuery
