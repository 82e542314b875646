import SeriesQuery.Proofs.Merge.Steps
import SeriesQuery.Proofs.Stream.Always

/-!
# What stands in the slots of a merge

Whatever is known of every value of an input is known of what stands in its
slot, however the merge is pulled and cancelled. No slot is empty that the kind
of the join does not allow to be so.
-/

namespace SeriesQuery

variable {E : QueryError → Prop}

/-- The values in the slots satisfy the properties of their inputs, and only the
slots of optional inputs are empty. -/
structure SlotsFit (kind : JoinKind) (Qs : List (α → Prop)) (slots : Slots α) : Prop where
  values : List.Forall₂ (fun Q slot => ∀ a, slot = some a → Q a) Qs slots
  present : ∀ index, kind.isOptional index = false → slots[index]? ≠ some none

-- ---------------------------------------------------------------------------
-- Cursors
-- ---------------------------------------------------------------------------

namespace Cursor

/-- The values of the input satisfy `Q`, and its errors satisfy `E`. -/
structure Always (Q : α → Prop) (E : QueryError → Prop) (cursor : Cursor α) : Prop where
  head : ∀ s, cursor.head = some s → Q s.value
  stream : cursor.stream.Always (fun s => Q s.value) E

theorem always_of_head {Q : α → Prop} {cursor : Cursor α} (hh : cursor.head = none)
    (hs : cursor.stream.Always (fun s => Q s.value) E) : cursor.Always Q E :=
  ⟨by simp [hh], hs⟩

def Keeps (Q : α → Prop) (E : QueryError → Prop) (result : Cursor α × Option QueryError) : Prop :=
  result.1.Always Q E ∧ ∀ e, result.2 = some e → E e

variable {Q : α → Prop} {cursor : Cursor α} {last : Option Instant} {key : Instant}

theorem keeps_none (h : cursor.Always Q E) : Keeps Q E (cursor, none) := ⟨h, by simp⟩

theorem keeps_error (h : cursor.Always Q E) (he : E e) : Keeps Q E (cursor, some e) :=
  ⟨h, by simpa using he⟩

theorem load_keeps {pull : Pull (Sample α)} (input : Nat) (last : Option Instant)
    (hu : ∀ input a b, E (.eval (.unsorted input a b))) (h : pull.Always (fun s => Q s.value) E) :
    Keeps Q E (load input last pull) := by
  cases pull with
  | stop => exact keeps_none (always_of_head rfl Stream.always_empty)
  | item answer next =>
    obtain ⟨hanswer, hnext⟩ := h
    cases answer with
    | error e => exact keeps_error (always_of_head rfl hnext) hanswer
    | ok sample =>
      rw [load]
      cases goesBack last sample.timestamp with
      | some t => exact keeps_error (always_of_head rfl hnext) (hu _ _ _)
      | none =>
        refine keeps_none ⟨fun s hs => ?_, hnext⟩
        cases hs
        exact hanswer

theorem fill_keeps (cancelled : Bool) (input : Nat)
    (hu : ∀ input a b, E (.eval (.unsorted input a b))) (h : cursor.Always Q E) :
    Keeps Q E (cursor.fill cancelled input) := by
  unfold fill
  split
  · exact keeps_none h
  · exact load_keeps input cursor.last hu (h.stream cancelled)

theorem seekFrom_keeps {pull : Pull (Sample α)} (cancelled : Bool) (input : Nat) (key : Instant)
    (last : Option Instant) (hu : ∀ input a b, E (.eval (.unsorted input a b)))
    (h : pull.Always (fun s => Q s.value) E) :
    Keeps Q E (seekFrom cancelled input key last pull) := by
  induction pull generalizing last with
  | stop => exact keeps_none (always_of_head rfl Stream.always_empty)
  | item answer next ih =>
    have hload := load_keeps input last hu h
    cases answer with
    | error e => exact hload
    | ok sample =>
      rw [load] at hload
      rw [seekFrom]
      cases hback : goesBack last sample.timestamp with
      | some t =>
        rw [hback] at hload
        exact hload
      | none =>
        rw [hback] at hload
        simp only
        split
        · exact ih _ _ (h.2 cancelled)
        · exact hload

theorem seek_keeps (cancelled : Bool) (input : Nat) (key : Instant)
    (hu : ∀ input a b, E (.eval (.unsorted input a b))) (h : cursor.Always Q E) :
    Keeps Q E (cursor.seek cancelled input key) := by
  have hsought := seekFrom_keeps cancelled input key cursor.last hu (h.stream cancelled)
  unfold seek
  split
  · split
    · exact hsought
    · exact keeps_none h
  · exact hsought

theorem Always.passBy (h : cursor.Always Q E) : (cursor.passBy key).Always Q E := by
  unfold Cursor.passBy
  split
  · exact always_of_head rfl h.stream
  · exact h

theorem Always.dropBefore (h : cursor.Always Q E) : (cursor.dropBefore key).Always Q E := by
  unfold Cursor.dropBefore
  split
  · exact always_of_head rfl h.stream
  · exact h

theorem Always.valueAt (h : cursor.Always Q E) : ∀ a, cursor.valueAt key = some a → Q a := by
  intro a hv
  unfold Cursor.valueAt at hv
  split at hv
  · obtain ⟨s, hs, rfl⟩ := Option.map_eq_some_iff.mp hv
    exact h.head s hs
  · cases hv

theorem valueAt_ne_none (hk : cursor.key? = some key) : cursor.valueAt key ≠ none := by
  rw [valueAt, if_pos hk]
  simp only [key?, Option.map_eq_some_iff] at hk
  obtain ⟨s, hs, -⟩ := hk
  simp [hs]

end Cursor

-- ---------------------------------------------------------------------------
-- Steps
-- ---------------------------------------------------------------------------

namespace Merge

variable {kind : JoinKind} {cursors : List (Cursor α)} {Qs : List (α → Prop)}

def Always (Qs : List (α → Prop)) (E : QueryError → Prop) (merge : Merge α) : Prop :=
  List.Forall₂ (fun Q cursor => Cursor.Always Q E cursor) Qs merge.cursors

theorem Pulled.keeps (hu : ∀ input a b, E (.eval (.unsorted input a b)))
    (hp : Pulled cancelled input cursors result)
    (h : List.Forall₂ (fun Q cursor => Cursor.Always Q E cursor) Qs cursors) :
    List.Forall₂ (fun Q cursor => Cursor.Always Q E cursor) Qs result.1 ∧
      ∀ e, result.2 = some e → E e := by
  have hpull : ∀ {Q : α → Prop} {input cursor result}, Cursor.Pulled cancelled input cursor result →
      cursor.Always Q E → Cursor.Keeps Q E result := by
    intro Q input cursor result hp hcursor
    cases hp with
    | fill => exact Cursor.fill_keeps cancelled input hu hcursor
    | seek => exact Cursor.seek_keeps cancelled input _ hu hcursor
  induction hp generalizing Qs with
  | nil => exact ⟨h, by simp⟩
  | next hcursor _ ih =>
    cases h with
    | cons hfirst hrest =>
      obtain ⟨hothers, herror⟩ := ih hrest
      exact ⟨.cons (hpull hcursor hfirst).1 hothers, herror⟩
  | failed hcursor =>
    cases h with
    | cons hfirst hrest =>
      obtain ⟨hpulled, herror⟩ := hpull hcursor hfirst
      exact ⟨.cons hpulled hrest, herror⟩

def Step.Fits (kind : JoinKind) (Qs : List (α → Prop)) (E : QueryError → Prop) : Step α → Prop
  | .stop => True
  | .answer row rest =>
    Outcome row (fun row => SlotsFit kind Qs row.value) E ∧ rest.kind = kind ∧ rest.Always Qs E
  | .again rest => rest.kind = kind ∧ rest.Always Qs E

theorem row_fits {key : Instant}
    (h : List.Forall₂ (fun Q cursor => Cursor.Always Q E cursor) Qs cursors)
    (hp : ∀ index cursor, kind.isOptional index = false → cursors[index]? = some cursor →
      cursor.key? = some key) :
    (row kind key cursors).Fits kind Qs E := by
  refine ⟨⟨List.forall₂_map_right_iff.mpr (h.imp fun _ _ hc => hc.valueAt), ?_⟩, rfl,
    List.forall₂_map_right_iff.mpr (h.imp fun _ _ hc => hc.passBy)⟩
  intro index hrequired hnone
  rw [List.getElem?_map, Option.map_eq_some_iff] at hnone
  obtain ⟨cursor, hcursor, hvalue⟩ := hnone
  exact Cursor.valueAt_ne_none (hp index cursor hrequired hcursor) hvalue

theorem step_fits {merge : Merge α} (cancelled : Bool)
    (hu : ∀ input a b, E (.eval (.unsorted input a b))) (h : merge.Always Qs E) :
    (merge.step cancelled).Fits merge.kind Qs E := by
  have hsteps := step_steps cancelled merge
  generalize merge.step cancelled = step at hsteps ⊢
  cases hsteps with
  | stop => trivial
  | error hp =>
    obtain ⟨hpulled, herror⟩ := hp.keeps hu h
    exact ⟨herror _ rfl, rfl, hpulled⟩
  | row hp hpresent => exact row_fits (hp.keeps hu h).1 hpresent
  | again hp =>
    exact ⟨rfl, List.forall₂_map_right_iff.mpr
      ((hp.keeps hu h).1.imp fun _ _ hcursor => hcursor.dropBefore)⟩

theorem stream_always {merge : Merge α} (hu : ∀ input a b, E (.eval (.unsorted input a b)))
    (h : merge.Always Qs E) :
    merge.stream.Always (fun row => SlotsFit merge.kind Qs row.value) E := by
  intro cancelled
  induction hsize : merge.size using Nat.strongRecOn generalizing merge cancelled with
  | ind n ih =>
    subst hsize
    have hstep := step_fits cancelled hu h
    have hless : ∀ rest, (merge.step cancelled).rest? = some rest → rest.size < merge.size :=
      fun _ => size_step
    rw [stream]
    cases hs : merge.step cancelled with
    | stop => exact Pull.always_stop
    | answer answer rest =>
      rw [hs] at hstep
      obtain ⟨hanswer, hkind, hrest⟩ := hstep
      have hlt := hless rest (by rw [hs]; rfl)
      exact .item hanswer fun cancelled => hkind ▸ ih _ hlt hrest cancelled rfl
    | again rest =>
      rw [hs] at hstep
      obtain ⟨hkind, hrest⟩ := hstep
      have hlt := hless rest (by rw [hs]; rfl)
      exact hkind ▸ ih _ hlt hrest cancelled rfl

theorem Always.ofStreams {streams : List (Stream (Sample α))}
    (h : List.Forall₂ (fun Q stream => Stream.Always (fun s => Q s.value) E stream) Qs streams) :
    (ofStreams kind streams).Always Qs E :=
  List.forall₂_map_right_iff.mpr (h.imp fun _ _ hs => Cursor.always_of_head rfl hs)

end Merge

end SeriesQuery
