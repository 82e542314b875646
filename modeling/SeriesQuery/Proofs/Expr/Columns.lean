import SeriesQuery.Proofs.Expr.Agreement
import SeriesQuery.Proofs.Expr.Leaves
import SeriesQuery.Proofs.Query.Schema

/-!
# Expressions see columns by their names

Where the columns of a row stand, and what other columns stand beside them, is
nothing to an expression: it compiles to the same field or fails with the same
error, and it answers a row and its rearrangement alike. Only references know
of columns, and of unique names each finds the same field and the same value.
-/

namespace SeriesQuery

-- ---------------------------------------------------------------------------
-- Unique names
-- ---------------------------------------------------------------------------

section
variable {key : α → String} {items others added : List α}

theorem find?_eq_some_of_unique (hd : (items.map key).Nodup) :
    items.find? (key · = name) = some a ↔ a ∈ items ∧ key a = name := by
  induction items with
  | nil => simp
  | cons b rest ih =>
    obtain ⟨hb, hrest⟩ := List.nodup_cons.mp hd
    have hother : ∀ c ∈ rest, key c ≠ key b := fun c hc heq => hb (heq ▸ List.mem_map_of_mem hc)
    rw [List.find?_cons]
    by_cases hname : key b = name
    · subst hname
      simp
      grind
    · simp [hname, ih hrest]
      grind

theorem find?_rearranged (hp : others.Perm (items ++ added)) (hd : (others.map key).Nodup)
    (ha : ∀ a ∈ added, key a ≠ name) :
    others.find? (key · = name) = items.find? (key · = name) := by
  have hitems : (items.map key).Nodup := by
    have hall := (hp.map key).nodup_iff.mp hd
    rw [List.map_append] at hall
    exact (List.nodup_append.mp hall).1
  ext a
  rw [find?_eq_some_of_unique hd, find?_eq_some_of_unique hitems, hp.mem_iff, List.mem_append]
  grind

end

-- ---------------------------------------------------------------------------
-- Rearranged columns
-- ---------------------------------------------------------------------------

/-- Full rows of two lists of fields, the second of which has the fields of the
first in some order and others added: each value still stands under its field. -/
structure Row.Rearranged (fields added fields' : List Field) (row row' : Row) : Prop where
  width : row.length = fields.length
  width' : row'.length = fields'.length
  columns : ∃ extra : Row, (fields'.zip row').Perm ((fields ++ added).zip (row ++ extra))

section
open Compiled

variable {fields added fields' : List Field} {row row' : Row}

theorem Row.Rearranged.named? (h : row.Rearranged fields added fields' row')
    (hd : (fields'.map (·.urn)).Nodup) (ha : ∀ field ∈ added, field.urn ≠ urn) :
    row'.named? fields' urn = row.named? fields urn := by
  obtain ⟨extra, hcolumns⟩ := h.columns
  rw [List.zip_append h.width.symm] at hcolumns
  have hnames : ((fields'.zip row').map (·.1.urn)).Nodup := by
    have hfields := List.map_fst_zip (Nat.le_of_eq h.width'.symm)
    rw [← hfields, List.map_map] at hd
    exact hd
  refine congrArg (Option.map _) (find?_rearranged hcolumns hnames ?_)
  rintro ⟨field, value⟩ hmem
  exact ha field (List.of_mem_zip hmem).1

theorem Compiled.reference_agree (hperm : fields'.Perm (fields ++ added))
    (hd : (fields'.map (·.urn)).Nodup) (ha : ∀ field ∈ added, field.urn ≠ urn) :
    Alike (Agree (Row.Rearranged fields added fields')) (reference fields urn)
      (reference fields' urn) := by
  have hfield := reference_field fields' urn
  rw [find?_rearranged hperm hd ha, ← reference_field fields urn] at hfield
  cases hx : reference fields urn with
  | error e =>
    cases hy : reference fields' urn with
    | error e' =>
      rw [hx, hy] at hfield
      cases hfield
      exact .error e
    | ok c' => simp [hx, hy, Except.map] at hfield
  | ok c =>
    cases hy : reference fields' urn with
    | error e' => simp [hx, hy, Except.map] at hfield
    | ok c' =>
      rw [hx, hy] at hfield
      refine .ok ⟨(Except.ok.inj hfield).symm, fun row row' hrows => ?_⟩
      obtain ⟨v, hv, heval⟩ := reference_named hx hrows.width
      obtain ⟨w, hw, heval'⟩ := reference_named hy hrows.width'
      rw [hrows.named? hd ha, hv] at hw
      rw [heval, heval', Option.some.inj hw]

theorem Compiled.constant_agree {rows : Row → Row → Prop} {field : Field} :
    Alike (Agree rows) (constant field value) (constant field value) := by
  cases hc : constant field value with
  | error e => exact .error e
  | ok c =>
    simp only [constant, throw_unless_eq_ok, pure_eq_ok] at hc
    obtain ⟨-, -, rfl⟩ := hc
    exact .ok ⟨rfl, fun _ _ _ => rfl⟩

theorem Expr.compile_alike_of_references {rows : Row → Row → Prop} {expr : Expr}
    (h : ∀ urn, .reference urn ∈ expr.leaves →
      Alike (Agree rows) (Compiled.reference fields urn) (Compiled.reference fields' urn)) :
    Alike (Agree rows) (expr.compile fields) (expr.compile fields') := by
  induction expr with
  | constant field value => exact constant_agree
  | reference urn => exact h urn (List.mem_singleton_self _)
  | cast source target ih => exact (ih h).within.bind fun s s' hs => cast_agree hs
  | condition op left right ihl ihr =>
    simp only [leaves, List.mem_append, or_imp, forall_and] at h
    exact (ihl h.1).within.bind fun l l' hl => (ihr h.2).within.bind fun r r' hr =>
      condition_agree hl (hr.mono fun _ _ h => h.1)
  | logical op left right ihl ihr =>
    simp only [leaves, List.mem_append, or_imp, forall_and] at h
    exact (ihl h.1).within.bind fun l l' hl => (ihr h.2).within.bind fun r r' hr =>
      logical_agree hl (hr.mono fun _ _ h => h.1)
  | numeric op left right ihl ihr =>
    simp only [leaves, List.mem_append, or_imp, forall_and] at h
    exact (ihl h.1).within.bind fun l l' hl => (ihr h.2).within.bind fun r r' hr =>
      numeric_agree hl (hr.mono fun _ _ h => h.1)
  | unary op operand ih => exact (ih h).within.bind fun s s' hs => unary_agree hs
  | nvl source alternative ihs iha =>
    simp only [leaves, List.mem_append, or_imp, forall_and] at h
    exact (ihs h.1).within.bind fun s s' hs => (iha h.2).within.bind fun a a' ha =>
      nvl_agree hs (ha.mono fun _ _ h => h.1)
  | selector choice whenTrue whenFalse ihc iht ihf =>
    simp only [leaves, List.mem_append, or_imp, forall_and] at h
    exact (ihc h.1.1).within.bind fun c c' hc => (iht h.1.2).within.bind fun t t' ht =>
      (ihf h.2).within.bind fun f f' hf => selector_agree hc (ht.mono fun _ _ h => h.1)
        (hf.mono fun _ _ h => h.1)

/-- Fields in another order, with others added that no reference names: an
expression compiles against them to the same field or fails with the same
error, and it answers every full row as it answers the row with its values
rearranged and any values added. -/
theorem Expr.sees_columns_by_name (expr : Expr) (hperm : fields'.Perm (fields ++ added))
    (hvalid : Field.validate fields' = .ok ())
    (hadded : ∀ field ∈ added, .reference field.urn ∉ expr.leaves) :
    (∃ e, expr.compile fields = .error e ∧ expr.compile fields' = .error e) ∨
      ∃ c c', expr.compile fields = .ok c ∧ expr.compile fields' = .ok c' ∧ c.field = c'.field ∧
        ∀ row row', row.Rearranged fields added fields' row' → c.eval row = c'.eval row' := by
  have hd := (Field.validate_eq_ok.mp hvalid).distinct
  have halike : Alike (Agree (Row.Rearranged fields added fields')) (expr.compile fields)
      (expr.compile fields') := by
    refine compile_alike_of_references fun urn hurn => reference_agree hperm hd ?_
    rintro field hfield rfl
    exact hadded field hfield hurn
  generalize expr.compile fields = x, expr.compile fields' = y at halike
  cases halike with
  | error e => exact .inl ⟨e, rfl, rfl⟩
  | ok h => exact .inr ⟨_, _, rfl, rfl, h.field_eq, h.eval_eq⟩

end

def Expr.change : Expr := .numeric .subtract (.reference "new") (.reference "old")

def Expr.changeFields : List Field := [.plain "new" .integer true, .plain "old" .integer true]

def Expr.notedFields : List Field :=
  [.plain "old" .integer true, .plain "note" .string false, .plain "new" .integer true]

theorem Expr.change_sees_columns_by_name :
    notedFields.Perm (changeFields ++ [.plain "note" .string false]) ∧
      Field.validate notedFields = .ok () ∧
      (∀ field ∈ [Field.plain "note" .string false], .reference field.urn ∉ change.leaves) ∧
      Row.Rearranged changeFields [.plain "note" .string false] notedFields
        [.integer 7, .integer 2] [.integer 2, .null, .integer 7] ∧
      ∃ c c', change.compile changeFields = .ok c ∧ change.compile notedFields = .ok c' ∧
        c.field = c'.field ∧ c.eval [.integer 7, .integer 2] = .ok (.integer 5) ∧
        c.eval [.integer 7, .integer 2] = c'.eval [.integer 2, .null, .integer 7] := by
  have hmoved {α : Type} (a b c : α) : List.Perm [b, c, a] [a, b, c] :=
    @List.perm_append_comm _ [b, c] [a]
  have hperm : notedFields.Perm (changeFields ++ [.plain "note" .string false]) := hmoved _ _ _
  have hvalid : Field.validate notedFields = .ok () := rfl
  have hadded : ∀ field ∈ [Field.plain "note" .string false],
      .reference field.urn ∉ change.leaves := by
    simp [change, leaves, Field.plain]
  have hrows : Row.Rearranged changeFields [.plain "note" .string false] notedFields
      [.integer 7, .integer 2] [.integer 2, .null, .integer 7] :=
    ⟨rfl, rfl, [.null], hmoved _ _ _⟩
  refine ⟨hperm, hvalid, hadded, hrows, ?_⟩
  rcases change.sees_columns_by_name hperm hvalid hadded with ⟨e, he, -⟩ |
    ⟨c, c', hc, hc', hfield, heval⟩
  · cases he
  · exact ⟨c, c', hc, hc', hfield, by cases hc; rfl, heval _ _ hrows⟩

end SeriesQuery
