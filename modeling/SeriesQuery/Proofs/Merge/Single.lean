import SeriesQuery.Proofs.Merge.Chronological
import SeriesQuery.Proofs.Merge.Rows

/-!
# A merge of one input

Of any kind, a merge of one input in order answers what the input does: each
sample in a slot of its own, and each error in its place.
-/

namespace SeriesQuery

def Sample.inSlot (sample : Sample α) : Sample (Slots α) := ⟨sample.timestamp, [some sample.value]⟩

namespace Merge

variable {kind : JoinKind} {stream : Stream (Sample α)} {last : Option Instant}

theorem step_single :
    (⟨kind, [⟨stream, none, last⟩]⟩ : Merge α).step false =
      match Cursor.load 0 last (stream false) with
      | (cursor, some e) => .answer (.error e) ⟨kind, [cursor]⟩
      | (cursor, none) =>
        match cursor.head with
        | some sample => .answer (.ok sample.inSlot) ⟨kind, [{ cursor with head := none }]⟩
        | none => .stop := by
  have hfill : (⟨stream, none, last⟩ : Cursor α).fill false 0 =
      Cursor.load 0 last (stream false) := rfl
  rcases hload : Cursor.load 0 last (stream false) with ⟨cursor, _ | e⟩
  · cases hhead : cursor.head with
    | none =>
      cases kind <;> simp [step, stepInner, stepLeft, stepFull, fillAll, hfill, hload, allKeys,
        Cursor.key?, hhead]
    | some sample =>
      have hkey : ¬ sample.timestamp < sample.timestamp := Std.not_lt.mpr (Std.le_refl _)
      cases kind <;> simp [step, stepInner, stepLeft, stepFull, fillAll, seekAll, hfill, hload,
        allKeys, Cursor.key?, hhead, hkey, row, Cursor.valueAt, Cursor.passBy, Sample.inSlot]
  · cases kind <;> simp [step, stepInner, stepLeft, stepFull, fillAll, hfill, hload]

theorem answers_single_from {pull : Pull (Sample α)} (hpull : stream false = pull)
    (hlast : ∀ t ∈ last, ∀ s ∈ pull.answers.filterMap Except.toOption, t ≤ s.timestamp)
    (ho : InOrder (pull.answers.filterMap Except.toOption)) :
    (⟨kind, [⟨stream, none, last⟩]⟩ : Merge α).stream.answers =
      pull.answers.map (Except.map Sample.inSlot) := by
  induction pull generalizing stream last with
  | stop =>
    rw [answers_stream, step_single, hpull]
    rfl
  | item answer next ih =>
    rw [answers_stream, step_single, hpull]
    cases answer with
    | error e => exact congrArg _ (ih false rfl hlast ho)
    | ok sample =>
      obtain ⟨hfirst, hrest⟩ := List.pairwise_cons.mp ho
      have hforward : Cursor.goesBack last sample.timestamp = none :=
        Cursor.goesBack_eq_none fun t ht => hlast t ht sample List.mem_cons_self
      rw [Cursor.load, hforward]
      refine congrArg _ (ih false rfl ?_ hrest)
      rintro t ⟨⟩ s hs
      exact hfirst s hs

theorem answers_single (ho : InOrder (stream.answers.filterMap Except.toOption)) :
    (ofStreams kind [stream]).stream.answers = stream.answers.map (Except.map Sample.inSlot) :=
  answers_single_from rfl (by simp) ho

end Merge

end SeriesQuery
