import SeriesQuery.Proofs.Expr.Returns

/-!
# Expressions that agree

Two compiled expressions agree on pairs of rows if they have the same field
and answer the rows of each pair alike, with the same value or the same error.
Every builder of `Compiled` takes operands that agree to expressions that
agree, and it asks an operand for no more than it reads: a right operand only
has to agree where the left one leaves the answer open. Two ways of compiling
an expression, or two expressions that differ in one place, are compared by
these lemmas along the rest of the tree.
-/

namespace SeriesQuery

-- ---------------------------------------------------------------------------
-- Steps that end alike
-- ---------------------------------------------------------------------------

/-- Both steps fail with the same error, or both return, and what they return
is related. -/
inductive Alike (R : α → β → Prop) : Except ε α → Except ε β → Prop
  | error (e : ε) : Alike R (.error e) (.error e)
  | ok {a : α} {b : β} (h : R a b) : Alike R (.ok a) (.ok b)

namespace Alike

variable {R : α → β → Prop} {S : γ → δ → Prop} {x : Except ε α} {y : Except ε β}

theorem bind {f : α → Except ε γ} {g : β → Except ε δ} (h : Alike R x y)
    (hf : ∀ a b, R a b → Alike S (f a) (g b)) : Alike S (x >>= f) (y >>= g) := by
  cases h with
  | error e => exact .error e
  | ok h => exact hf _ _ h

theorem bind_same {f : α → Except ε γ} {g : α → Except ε δ}
    (h : ∀ a, x = .ok a → Alike S (f a) (g a)) : Alike S (x >>= f) (x >>= g) := by
  cases x with
  | error e => exact .error e
  | ok a => exact h a rfl

theorem mono {T : α → β → Prop} (h : Alike R x y) (hR : ∀ a b, R a b → T a b) : Alike T x y := by
  cases h with
  | error e => exact .error e
  | ok h => exact .ok (hR _ _ h)

theorem and_left {P : α → Prop} (h : Alike R x y) (hP : ∀ a, x = .ok a → P a) :
    Alike (fun a b => P a ∧ R a b) x y := by
  cases h with
  | error e => exact .error e
  | ok h => exact .ok ⟨hP _ rfl, h⟩

theorem within {x : Except CompileError α} {y : Except CompileError β} (h : Alike R x y) :
    Alike R (CompileError.within place x) (CompileError.within place y) := by
  cases h with
  | error e => exact .error _
  | ok h => exact .ok h

theorem exists_of_ok (h : Alike R x y) (hx : x = .ok a) : ∃ b, y = .ok b ∧ R a b := by
  cases h with
  | error e => cases hx
  | ok h =>
    cases hx
    exact ⟨_, rfl, h⟩

end Alike

theorem bind_congr_of_ok {x : Except ε α} {f g : α → Except ε β}
    (h : ∀ a, x = .ok a → f a = g a) : x >>= f = x >>= g := by
  cases x with
  | error e => rfl
  | ok a => exact h a rfl

-- ---------------------------------------------------------------------------
-- Agreement of compiled expressions
-- ---------------------------------------------------------------------------

namespace Compiled

/-- The same field, and the same answer to both rows of each pair. -/
structure Agree (rows : Row → Row → Prop) (a b : Compiled) : Prop where
  field_eq : a.field = b.field
  eval_eq : ∀ r s, rows r s → a.eval r = b.eval s

variable {rows : Row → Row → Prop}

theorem Agree.refl (hrows : ∀ r s, rows r s → r = s) (a : Compiled) : a.Agree rows a :=
  ⟨rfl, fun r s h => hrows r s h ▸ rfl⟩

theorem Agree.mono {fewer : Row → Row → Prop} {a b : Compiled} (h : a.Agree rows b)
    (hrows : ∀ r s, fewer r s → rows r s) : a.Agree fewer b :=
  ⟨h.field_eq, fun r s hrs => h.eval_eq r s (hrows r s hrs)⟩

theorem Agree.exists_eval {a b : Compiled} (h : a.Agree rows b) :
    ∃ eval, b = { a with eval } ∧ ∀ r s, rows r s → a.eval r = eval s := by
  obtain ⟨field, eval⟩ := b
  obtain ⟨rfl, heval⟩ := h
  exact ⟨eval, rfl, heval⟩

section
variable {source source' left left' right right' alternative alternative' choice choice' whenTrue
  whenTrue' whenFalse whenFalse' : Compiled}

theorem cast_agree (h : source.Agree rows source') :
    Alike (Agree rows) (cast source target) (cast source' target) := by
  obtain ⟨eval', rfl, heval⟩ := h.exists_eval
  refine Alike.bind_same fun conversion _ => .ok ⟨rfl, fun r s hrs => ?_⟩
  simp only [heval r s hrs]

theorem condition_agree (hl : left.Agree rows left')
    (hr : right.Agree (fun r s => rows r s ∧ ∃ v, left.eval r = .ok v) right') :
    Alike (Agree rows) (condition op left right) (condition op left' right') := by
  obtain ⟨leftEval', rfl, hleft⟩ := hl.exists_eval
  obtain ⟨rightEval', rfl, hright⟩ := hr.exists_eval
  refine Alike.bind_same fun type _ => Alike.bind_same fun _ _ => .ok ⟨rfl, fun r s hrs => ?_⟩
  simp only [← hleft r s hrs]
  exact bind_congr_of_ok fun a ha => by rw [hright r s ⟨hrs, a, ha⟩]; rfl

theorem logical_agree (hl : left.Agree rows left')
    (hr : right.Agree (fun r s => rows r s ∧ left.eval r = .ok (.boolean !op.deciding)) right') :
    Alike (Agree rows) (logical op left right) (logical op left' right') := by
  obtain ⟨leftEval', rfl, hleft⟩ := hl.exists_eval
  obtain ⟨rightEval', rfl, hright⟩ := hr.exists_eval
  refine Alike.bind_same fun _ _ => Alike.bind_same fun _ _ => .ok ⟨rfl, fun r s hrs => ?_⟩
  simp only [← hleft r s hrs]
  refine bind_congr_of_ok fun a ha => ?_
  cases a with
  | boolean t =>
    cases op <;> cases t
    case and.true | or.false =>
      rw [hright r s ⟨hrs, ha⟩]
      rfl
    all_goals rfl
  | _ => rfl

theorem numeric_agree (hl : left.Agree rows left')
    (hr : right.Agree (fun r s => rows r s ∧ ∃ v, left.eval r = .ok v) right') :
    Alike (Agree rows) (numeric op left right) (numeric op left' right') := by
  obtain ⟨leftEval', rfl, hleft⟩ := hl.exists_eval
  obtain ⟨rightEval', rfl, hright⟩ := hr.exists_eval
  refine Alike.bind_same fun type _ => Alike.bind_same fun _ _ => .ok ⟨rfl, fun r s hrs => ?_⟩
  simp only [← hleft r s hrs]
  exact bind_congr_of_ok fun a ha => by rw [hright r s ⟨hrs, a, ha⟩]; rfl

theorem unary_agree (h : source.Agree rows source') :
    Alike (Agree rows) (unary op source) (unary op source') := by
  obtain ⟨eval', rfl, heval⟩ := h.exists_eval
  refine Alike.bind_same fun _ _ => .ok ⟨rfl, fun r s hrs => ?_⟩
  simp only [heval r s hrs]

theorem nvl_agree (hs : source.Agree rows source')
    (ha : alternative.Agree (fun r s => rows r s ∧ source.eval r = .ok .null) alternative') :
    Alike (Agree rows) (nvl source alternative) (nvl source' alternative') := by
  obtain ⟨sourceEval', rfl, hsource⟩ := hs.exists_eval
  obtain ⟨alternativeEval', rfl, halternative⟩ := ha.exists_eval
  simp only [nvl]
  split
  · exact .error _
  · refine Alike.bind_same fun type _ => ?_
    split
    · exact .ok ⟨rfl, hsource⟩
    · refine .ok ⟨rfl, fun r s hrs => ?_⟩
      simp only [← hsource r s hrs]
      refine bind_congr_of_ok fun v hv => ?_
      cases v with
      | null => exact halternative r s ⟨hrs, hv⟩
      | _ => rfl

theorem selector_agree (hc : choice.Agree rows choice')
    (ht : whenTrue.Agree (fun r s => rows r s ∧ choice.eval r = .ok (.boolean true)) whenTrue')
    (hf : whenFalse.Agree (fun r s => rows r s ∧ choice.eval r = .ok (.boolean false)) whenFalse') :
    Alike (Agree rows) (selector choice whenTrue whenFalse)
      (selector choice' whenTrue' whenFalse') := by
  obtain ⟨choiceEval', rfl, hchoice⟩ := hc.exists_eval
  obtain ⟨trueEval', rfl, htrue⟩ := ht.exists_eval
  obtain ⟨falseEval', rfl, hfalse⟩ := hf.exists_eval
  refine Alike.bind_same fun _ _ => ?_
  cases difference whenTrue.field whenFalse.field with
  | some aspect => exact .error _
  | none =>
    refine .ok ⟨rfl, fun r s hrs => ?_⟩
    simp only [← hchoice r s hrs]
    refine bind_congr_of_ok fun v hv => ?_
    cases v with
    | boolean t =>
      cases t with
      | true => exact htrue r s ⟨hrs, hv⟩
      | false => exact hfalse r s ⟨hrs, hv⟩
    | _ => rfl

end

end Compiled

end SeriesQuery
