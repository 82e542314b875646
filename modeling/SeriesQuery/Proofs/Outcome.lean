import Mathlib.Data.List.Forall2
import SeriesQuery.Error.Query

/-!
# Outcomes of fallible steps

`Outcome x Q E` says how a step can end: what it returns satisfies `Q`, and
what it fails with satisfies `E`. The rules below follow the ways in which
steps are put together, so that a proof about a step needs only the outcomes
of its parts. The first lemmas read a success backwards instead.
-/

namespace SeriesQuery

-- ---------------------------------------------------------------------------
-- Successes read backwards
-- ---------------------------------------------------------------------------

theorem bind_eq_ok {x : Except ε α} {f : α → Except ε β} {b : β} :
    (x >>= f) = .ok b ↔ ∃ a, x = .ok a ∧ f a = .ok b := by
  cases x with
  | error e => simp [Bind.bind, Except.bind]
  | ok a => simp [Bind.bind, Except.bind]

theorem pure_eq_ok {a b : α} : (pure a : Except ε α) = .ok b ↔ a = b := by
  simp [Pure.pure, Except.pure]

@[simp] theorem throw_eq_ok {e : ε} {a : α} : (throw e : Except ε α) = .ok a ↔ False :=
  iff_of_false (by intro h; cases h) not_false

theorem map_eq_ok {x : Except ε α} {f : α → β} {b : β} :
    x.map f = .ok b ↔ ∃ a, x = .ok a ∧ f a = b := by
  cases x with
  | error e => simp [Except.map]
  | ok a => simp [Except.map]

theorem throw_unless_eq_ok {c : Prop} [Decidable c] {e : ε} {f : β → Except ε α}
    {x : Except ε α} : (if c then throw e >>= f else x) = .ok a ↔ ¬ c ∧ x = .ok a := by
  by_cases h : c
  · simp only [h, if_true, not_true, false_and, iff_false]
    intro h
    cases h
  · simp [h]

theorem mapM_eq_ok {f : α → Except ε β} {l : List α} {r : List β} :
    l.mapM f = .ok r ↔ List.Forall₂ (fun a b => f a = .ok b) l r := by
  induction l generalizing r with
  | nil => rw [List.mapM_nil, pure_eq_ok, List.forall₂_nil_left_iff, eq_comm]
  | cons a rest ih =>
    simp only [List.mapM_cons, bind_eq_ok, ih, pure_eq_ok, List.forall₂_cons_left_iff]
    constructor
    · rintro ⟨b, hb, others, ho, rfl⟩
      exact ⟨b, others, hb, ho, rfl⟩
    · rintro ⟨b, others, hb, ho, rfl⟩
      exact ⟨b, hb, others, ho, rfl⟩

theorem mapM_map {f : α → β} {l : List (Except ε α)} :
    (l.map (Except.map f)).mapM id = (l.mapM id).map (List.map f) := by
  induction l with
  | nil => rfl
  | cons x rest ih =>
    rw [List.map_cons, List.mapM_cons, List.mapM_cons, ih]
    cases x with
    | error e => rfl
    | ok a => cases rest.mapM id <;> rfl

theorem forM_eq_ok {f : α → Except ε Unit} {l : List α} {u : Unit} :
    l.forM f = .ok u ↔ ∀ a ∈ l, f a = .ok () := by
  induction l with
  | nil => simp [pure_eq_ok]
  | cons a rest ih =>
    simp only [List.forM, bind_eq_ok, List.forall_mem_cons]
    constructor
    · rintro ⟨_, ha, hrest⟩
      exact ⟨ha, ih.mp hrest⟩
    · rintro ⟨ha, hrest⟩
      exact ⟨(), ha, ih.mpr hrest⟩

/-- What one step keeps, counting the steps, a successful fold keeps. -/
theorem foldlM_keeps {step : σ → α → Except ε σ} {l : List α} {s t : σ} (Inv : Nat → σ → Prop)
    (hstep : ∀ n s a t, Inv n s → step s a = .ok t → Inv (n + 1) t) (hs : Inv n s)
    (h : l.foldlM step s = .ok t) : Inv (n + l.length) t := by
  induction l generalizing n s with
  | nil =>
    cases h
    exact hs
  | cons a rest ih =>
    rw [List.foldlM_cons, bind_eq_ok] at h
    obtain ⟨next, hnext, hrest⟩ := h
    have hkept := ih (hstep n s a next hs hnext) hrest
    rwa [Nat.add_assoc, Nat.add_comm 1] at hkept

@[simp] theorem CompileError.within_eq_ok {x : Except CompileError α} :
    CompileError.within place x = .ok a ↔ x = .ok a := by
  cases x with
  | error e => constructor <;> intro h <;> cases h
  | ok a => exact Iff.rfl

@[simp] theorem EvalError.within_eq_ok {x : Except EvalError α} :
    EvalError.within stage x = .ok a ↔ x = .ok a := by
  cases x with
  | error e => constructor <;> intro h <;> cases h
  | ok a => exact Iff.rfl

@[simp] theorem QueryError.within_eq_ok {x : Except QueryError α} :
    QueryError.within stage x = .ok a ↔ x = .ok a := by
  cases x with
  | error e => constructor <;> intro h <;> cases h
  | ok a => exact Iff.rfl

@[simp] theorem QueryError.compiling_eq_ok {x : Except CompileError α} :
    QueryError.compiling x = .ok a ↔ x = .ok a := by
  cases x with
  | error e => constructor <;> intro h <;> cases h
  | ok a => exact ⟨fun h => by cases h; rfl, fun h => by cases h; rfl⟩

-- ---------------------------------------------------------------------------
-- Lists related element by element
-- ---------------------------------------------------------------------------

theorem exists_of_forall₂ {R : α → β → Prop} {l : List α} {r : List β} (h : List.Forall₂ R l r)
    (ha : a ∈ l) : ∃ b ∈ r, R a b := by
  induction h with
  | nil => cases ha
  | @cons x y l r hxy _ ih =>
    rcases List.mem_cons.mp ha with rfl | ha
    · exact ⟨y, List.mem_cons_self, hxy⟩
    · obtain ⟨b, hb, hab⟩ := ih ha
      exact ⟨b, List.mem_cons_of_mem _ hb, hab⟩

theorem ne_nil_of_forall₂ {R : α → β → Prop} {l : List α} {r : List β} (h : List.Forall₂ R l r)
    (hl : l ≠ []) : r ≠ [] := by
  rintro rfl
  cases h
  exact hl rfl

theorem exists_forall₂ {R : α → β → Prop} {l : List α} (h : ∀ a ∈ l, ∃ b, R a b) :
    ∃ r, List.Forall₂ R l r := by
  induction l with
  | nil => exact ⟨[], .nil⟩
  | cons a rest ih =>
    obtain ⟨⟨b, hb⟩, hrest⟩ := List.forall_mem_cons.mp h
    obtain ⟨r, hr⟩ := ih hrest
    exact ⟨b :: r, .cons hb hr⟩

theorem forall₂_comp {R : α → β → Prop} {S : β → γ → Prop} {T : α → γ → Prop} {l : List α}
    {m : List β} {r : List γ} (hl : List.Forall₂ R l m) (hr : List.Forall₂ S m r)
    (h : ∀ a b c, R a b → S b c → T a c) : List.Forall₂ T l r := by
  induction hl generalizing r with
  | nil =>
    cases hr
    exact .nil
  | cons hab _ ih =>
    cases hr with
    | cons hbc hrest => exact .cons (h _ _ _ hab hbc) (ih hrest)

theorem exists_forall₂_of_comp {R : α → β → Prop} {S : β → γ → Prop} {l : List α} {r : List γ}
    (h : List.Forall₂ (fun a c => ∃ b, R a b ∧ S b c) l r) :
    ∃ m, List.Forall₂ R l m ∧ List.Forall₂ S m r := by
  induction h with
  | nil => exact ⟨[], .nil, .nil⟩
  | cons hac _ ih =>
    obtain ⟨b, hab, hbc⟩ := hac
    obtain ⟨m, hl, hr⟩ := ih
    exact ⟨b :: m, .cons hab hl, .cons hbc hr⟩

-- ---------------------------------------------------------------------------
-- Outcomes
-- ---------------------------------------------------------------------------

/-- What a step returns satisfies `Q`, and what it fails with satisfies `E`. -/
def Outcome (x : Except ε α) (Q : α → Prop) (E : ε → Prop) : Prop :=
  match x with
  | .ok a => Q a
  | .error e => E e

namespace Outcome

section
variable {Q R : α → Prop} {E F : ε → Prop}

@[simp] theorem ok_iff : Outcome (.ok a : Except ε α) Q E ↔ Q a := Iff.rfl

@[simp] theorem error_iff : Outcome (.error e : Except ε α) Q E ↔ E e := Iff.rfl

theorem mono {x : Except ε α} (h : Outcome x Q E) (hQ : ∀ a, Q a → R a) (hE : ∀ e, E e → F e) :
    Outcome x R F := by
  cases x with
  | error e => exact hE e h
  | ok a => exact hQ a h

theorem imp {x : Except ε α} (h : Outcome x Q E) (hQ : ∀ a, Q a → R a) : Outcome x R E :=
  h.mono hQ fun _ he => he

theorem bind {P : β → Prop} {x : Except ε α} {f : α → Except ε β} (h : Outcome x Q E)
    (hf : ∀ a, Q a → Outcome (f a) P E) : Outcome (x >>= f) P E := by
  cases x with
  | error e => exact h
  | ok a => exact hf a h

theorem map {P : β → Prop} {x : Except ε α} {f : α → β} (h : Outcome x Q E)
    (hf : ∀ a, Q a → P (f a)) : Outcome (x.map f) P E := by
  cases x with
  | error e => exact h
  | ok a => exact hf a h

theorem foldlM {Inv : σ → Prop} {step : σ → α → Except ε σ} {items : List α} {start : σ}
    (h : ∀ s a, a ∈ items → Inv s → Outcome (step s a) Inv E) (hs : Inv start) :
    Outcome (items.foldlM step start) Inv E := by
  induction items generalizing start with
  | nil => exact hs
  | cons a rest ih =>
    rw [List.foldlM_cons]
    exact (h start a List.mem_cons_self hs).bind fun next hnext =>
      ih (fun s b hb => h s b (List.mem_cons_of_mem a hb)) hnext

theorem mapM {P : β → Prop} {f : α → Except ε β} {items : List α}
    (h : ∀ a ∈ items, Outcome (f a) P E) : Outcome (items.mapM f) (fun bs => ∀ b ∈ bs, P b) E := by
  induction items with
  | nil => exact fun b hb => absurd hb List.not_mem_nil
  | cons a rest ih =>
    obtain ⟨ha, hrest⟩ := List.forall_mem_cons.mp h
    rw [List.mapM_cons]
    exact ha.bind fun b hb => (ih hrest).bind fun bs hbs => List.forall_mem_cons.mpr ⟨hb, hbs⟩

theorem cases {x : Except ε α} (h : Outcome x Q E) :
    (∃ a, x = .ok a ∧ Q a) ∨ ∃ e, x = .error e ∧ E e := by
  cases x with
  | error e => exact .inr ⟨e, rfl, h⟩
  | ok a => exact .inl ⟨a, rfl, h⟩

theorem any {x : Except ε α} : Outcome x (fun _ => True) fun _ => True := by
  cases x with
  | error e => trivial
  | ok a => trivial

theorem of_ok {x : Except ε α} (h : Outcome x R E) (hQ : ∀ a, x = .ok a → Q a) :
    Outcome x Q E := by
  cases x with
  | error e => exact h
  | ok a => exact hQ a rfl

end

end Outcome

end SeriesQuery
