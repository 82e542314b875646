import SeriesQuery.Value.Conversion

/-!
# Integers survive as text

A text writes a number if it has at least one digit, and in front of the digits
a sign or none. The reader takes one digit after the other and stops where the
number leaves the bounds; what it accepts are exactly the texts that write a
number within them, at any length. The text that an integer is cast to is one of
these, so it is read back as that integer from between any blanks.
-/

namespace SeriesQuery

namespace Text

/-- ASCII digits, at least one, and the number that they write. -/
structure Numeral (digits : List Char) (n : Nat) : Prop where
  nonempty : digits ≠ []
  isDigit : ∀ c ∈ digits, c.isDigit
  number : Nat.ofDigitChars 10 digits 0 = n

/-- A text of a whole number: digits, and in front of them a sign or none. -/
inductive Writes : List Char → Int → Prop
  | unsigned {digits : List Char} {n : Nat} (h : Numeral digits n) : Writes digits n
  | plus {digits : List Char} {n : Nat} (h : Numeral digits n) : Writes ('+' :: digits) n
  | minus {digits : List Char} {n : Nat} (h : Numeral digits n) : Writes ('-' :: digits) (-n)

variable {digits text before core after : List Char} {c : Char} {low high n : Int} {value : Nat}

-- ---------------------------------------------------------------------------
-- Digits
-- ---------------------------------------------------------------------------

theorem isDigit_iff : c.isDigit ↔ '0' ≤ c ∧ c ≤ '9' := Char.isDigit_iff_toNat

theorem digit?_of_isDigit (h : c.isDigit) : digit? c = some (c.toNat - '0'.toNat) :=
  if_pos (isDigit_iff.mp h)

theorem digit?_eq_none (h : ¬ c.isDigit) : digit? c = none :=
  if_neg fun hc => h (isDigit_iff.mpr hc)

theorem le_ofDigitChars (digits : List Char) (value : Nat) :
    value ≤ Nat.ofDigitChars 10 digits value := by
  induction digits generalizing value with
  | nil => exact Nat.le_refl _
  | cons c rest ih =>
    rw [Nat.ofDigitChars_cons]
    exact Nat.le_trans (by omega) (ih _)

theorem readUp_eq_ok (value : Nat) (hvalue : value ≤ high) :
    readUp high value digits = .ok n ↔
      (∀ c ∈ digits, c.isDigit) ∧ n = Nat.ofDigitChars 10 digits value ∧ n ≤ high := by
  induction digits generalizing value with
  | nil =>
    simp only [readUp, Except.ok.injEq, List.not_mem_nil, Nat.ofDigitChars_nil]
    grind
  | cons c rest ih =>
    rw [readUp, List.forall_mem_cons, Nat.ofDigitChars_cons]
    by_cases hc : c.isDigit
    · rw [digit?_of_isDigit hc]
      have hnext : 10 * (value : Int) + (c.toNat - '0'.toNat : Nat) =
          (10 * value + (c.toNat - '0'.toNat) : Nat) := by push_cast; rfl
      simp only [hnext, hc, true_and]
      split
      · next hle => exact ih _ hle
      · next hlt =>
        -- the number has left the bound here, and the rest cannot bring it back
        have hgrows := le_ofDigitChars rest (10 * value + (c.toNat - '0'.toNat))
        grind
    · rw [digit?_eq_none hc]
      simp [hc]

theorem readDown_eq_ok (value : Nat) :
    readDown low (-value) digits = .ok n ↔ readUp (-low) value digits = .ok (-n) := by
  induction digits generalizing value with
  | nil =>
    simp only [readDown, readUp, Except.ok.injEq]
    omega
  | cons c rest ih =>
    rw [readDown, readUp]
    cases digit? c with
    | none => simp
    | some d =>
      have hup : 10 * (value : Int) + d = (10 * value + d : Nat) := by push_cast; rfl
      have hdown : 10 * -(value : Int) - d = -(10 * value + d : Nat) := by push_cast; omega
      have hbound : low ≤ -((10 * value + d : Nat) : Int) ↔ ((10 * value + d : Nat) : Int) ≤ -low :=
        by omega
      simp only [hup, hdown, hbound]
      split
      · exact ih _
      · simp

theorem readUp_zero_eq_ok (hhigh : 0 ≤ high) (hne : digits ≠ []) :
    readUp high 0 digits = .ok n ↔ ∃ m, Numeral digits m ∧ n = m ∧ n ≤ high := by
  refine (readUp_eq_ok 0 hhigh).trans ?_
  constructor
  · rintro ⟨hdigits, rfl, hle⟩
    exact ⟨_, ⟨hne, hdigits, rfl⟩, rfl, hle⟩
  · rintro ⟨m, ⟨-, hdigits, rfl⟩, rfl, hle⟩
    exact ⟨hdigits, rfl, hle⟩

theorem readDown_zero_eq_ok (hlow : low ≤ 0) (hne : digits ≠ []) :
    readDown low 0 digits = .ok n ↔ ∃ m : Nat, Numeral digits m ∧ n = -m ∧ low ≤ n := by
  refine (readDown_eq_ok 0).trans ((readUp_zero_eq_ok (by omega) hne).trans ?_)
  refine exists_congr fun m => and_congr_right fun _ => ?_
  omega

-- ---------------------------------------------------------------------------
-- Signs
-- ---------------------------------------------------------------------------

theorem Numeral.head (h : Numeral (c :: digits) value) : c.isDigit :=
  h.isDigit c List.mem_cons_self

theorem writes_plus : Writes ('+' :: digits) n ↔ ∃ m, Numeral digits m ∧ n = m := by
  constructor
  · intro h
    cases h with
    | unsigned h => exact absurd h.head (by decide)
    | plus h => exact ⟨_, h, rfl⟩
  · rintro ⟨m, h, rfl⟩
    exact .plus h

theorem writes_minus : Writes ('-' :: digits) n ↔ ∃ m : Nat, Numeral digits m ∧ n = -m := by
  constructor
  · intro h
    cases h with
    | unsigned h => exact absurd h.head (by decide)
    | minus h => exact ⟨_, h, rfl⟩
  · rintro ⟨m, h, rfl⟩
    exact .minus h

theorem writes_unsigned (hplus : ∀ digits, text ≠ '+' :: digits)
    (hminus : ∀ digits, text ≠ '-' :: digits) :
    Writes text n ↔ ∃ m, Numeral text m ∧ n = m := by
  constructor
  · intro h
    cases h with
    | unsigned h => exact ⟨_, h, rfl⟩
    | plus _ => exact absurd rfl (hplus _)
    | minus _ => exact absurd rfl (hminus _)
  · rintro ⟨m, h, rfl⟩
    exact .unsigned h

theorem not_numeral_nil : ¬ Numeral [] value := fun h => h.nonempty rfl

theorem not_writes_nil : ¬ Writes [] n := by
  intro h
  cases h with
  | unsigned h => exact not_numeral_nil h

theorem readInteger_eq_ok (hlow : low < 0) (hhigh : 0 ≤ high) :
    readInteger low high text = .ok n ↔ Writes text n ∧ low ≤ n ∧ n ≤ high := by
  unfold readInteger
  split
  · simp [not_writes_nil]
  · -- a plus sign alone
    simp [writes_plus, not_numeral_nil]
  · next digits hne =>
    rw [readUp_zero_eq_ok hhigh hne, writes_plus]
    grind
  · next digits =>
    rw [writes_minus]
    by_cases hne : digits = []
    · simp [hne, not_numeral_nil]
    · rw [if_pos ⟨hlow, hne⟩, readDown_zero_eq_ok (by omega) hne]
      grind
  · next hnil _ hplus hminus =>
    rw [readUp_zero_eq_ok hhigh hnil, writes_unsigned hplus hminus]
    grind

theorem numeral_writeNat (n : Nat) : Numeral (writeNat n) n where
  nonempty := Nat.toDigits_ne_nil
  isDigit _ hc := Nat.isDigit_of_mem_toDigits (by decide) (by decide) hc
  number := Nat.ofDigitChars_toDigits (by decide) (by decide)

theorem writes_writeInteger (n : Int) : Writes (writeInteger n) n := by
  have hdigits := numeral_writeNat n.natAbs
  rw [writeInteger]
  split
  · exact writes_minus.mpr ⟨_, hdigits, by omega⟩
  · have hpos : (n.natAbs : Int) = n := by omega
    simpa [hpos] using Writes.unsigned hdigits

-- ---------------------------------------------------------------------------
-- Blanks
-- ---------------------------------------------------------------------------

theorem not_isBlank_of_isDigit (h : c.isDigit) : isBlank c = false := by
  obtain ⟨hlow, hhigh⟩ := Char.isDigit_iff_toNat.mp h
  simp only [show '0'.toNat = 48 from rfl, show '9'.toNat = 57 from rfl] at hlow hhigh
  simp [isBlank]
  omega

theorem Numeral.not_isBlank (h : Numeral digits value) : ∀ c ∈ digits, isBlank c = false :=
  fun c hc => not_isBlank_of_isDigit (h.isDigit c hc)

theorem Writes.ne_nil (h : Writes text n) : text ≠ [] :=
  fun hnil => not_writes_nil (hnil ▸ h)

theorem Writes.not_isBlank (h : Writes text n) : ∀ c ∈ text, isBlank c = false := by
  cases h with
  | unsigned h => exact h.not_isBlank
  | plus h => exact List.forall_mem_cons.mpr ⟨by decide, h.not_isBlank⟩
  | minus h => exact List.forall_mem_cons.mpr ⟨by decide, h.not_isBlank⟩

theorem trimStart_append (hbefore : ∀ c ∈ before, isBlank c) (hne : core ≠ [])
    (hcore : ∀ c ∈ core, isBlank c = false) :
    trimStart (before ++ (core ++ after)) = core ++ after := by
  obtain ⟨c, rest, rfl⟩ := List.exists_cons_of_ne_nil hne
  rw [trimStart, List.dropWhile_append_of_pos hbefore, List.cons_append,
    List.dropWhile_cons_of_neg (by simp [hcore c List.mem_cons_self])]

theorem trim_append (hbefore : ∀ c ∈ before, isBlank c) (hafter : ∀ c ∈ after, isBlank c)
    (hne : core ≠ []) (hcore : ∀ c ∈ core, isBlank c = false) :
    trim (before ++ core ++ after) = core := by
  have hback : trimStart (after.reverse ++ (core.reverse ++ [])) = core.reverse ++ [] :=
    trimStart_append (by simpa using hafter) (by simpa using hne) (by simpa using hcore)
  rw [trim, List.append_assoc, trimStart_append hbefore hne hcore, List.reverse_append]
  simpa using congrArg List.reverse hback

end Text

namespace Cast

theorem readIntegerValue_eq_ok {text : String} {value : Value} :
    readIntegerValue text = .ok value ↔ ∃ (n : Int) (i : Int64), Text.Writes (Text.trim text.toList) n ∧
      FitsInteger n ∧ i.toInt = n ∧ value = .integer i := by
  have hread (n : Int) :
      Text.readInteger lowestInteger highestInteger (Text.trim text.toList) = .ok n ↔
        Text.Writes (Text.trim text.toList) n ∧ FitsInteger n :=
    Text.readInteger_eq_ok (by decide) (by decide)
  rw [readIntegerValue]
  constructor
  · intro h
    cases hok : Text.readInteger lowestInteger highestInteger (Text.trim text.toList) with
    | error fault => simp [hok] at h
    | ok n =>
      rw [hok] at h
      obtain ⟨hwrites, hfits⟩ := (hread n).mp hok
      have hvalue : integer? n = some (Int64.ofInt n) := if_pos hfits
      exact ⟨n, _, hwrites, hfits, toInt_of_integer? hvalue, (Except.ok.inj h).symm⟩
  · rintro ⟨_, i, hwrites, hfits, rfl, rfl⟩
    rw [(hread i.toInt).mpr ⟨hwrites, hfits⟩]
    simp

/-- An integer that is cast to a text is read back from it by the cast in the
other direction, whatever blanks stand around it. That cast succeeds exactly for
the texts that are, once they are trimmed, digits behind a sign or none whose
number has 64 bits, and answers that number. -/
theorem integers_survive_text :
    ∃ write read, between .integer .string = .ok write ∧ between .string .integer = .ok read ∧
      (∀ i : Int64, ∃ text, write.run (.integer i) = .ok (.string text) ∧
        ∀ before after : String, (∀ c ∈ before.toList, Text.isBlank c) →
          (∀ c ∈ after.toList, Text.isBlank c) →
            read.run (.string (before ++ text ++ after)) = .ok (.integer i)) ∧
      ∀ text value, read.run (.string text) = .ok value ↔
        ∃ (n : Int) (i : Int64), Text.Writes (Text.trim text.toList) n ∧ FitsInteger n ∧ i.toInt = n ∧
          value = .integer i := by
  refine ⟨.integerToString, .stringToInteger, rfl, rfl, fun i => ⟨_, rfl, ?_⟩,
    fun text value => readIntegerValue_eq_ok⟩
  intro before after hbefore hafter
  have hwrites := Text.writes_writeInteger i.toInt
  have htrim : Text.trim (before ++ Value.integerText i ++ after).toList =
      Text.writeInteger i.toInt := by
    rw [String.toList_append, String.toList_append, Value.integerText, String.toList_ofList]
    exact Text.trim_append hbefore hafter hwrites.ne_nil hwrites.not_isBlank
  exact readIntegerValue_eq_ok.mpr ⟨_, i, htrim ▸ hwrites, fits_toInt i, rfl, rfl⟩

theorem lowest_integer_survives_text :
    (∀ c ∈ "\u3000 ".toList, Text.isBlank c) ∧ (∀ c ∈ "\n".toList, Text.isBlank c) ∧
      ∃ write read text, between .integer .string = .ok write ∧
        between .string .integer = .ok read ∧
        write.run (.integer Int64.minValue) = .ok (.string text) ∧ text = "-9223372036854775808" ∧
        read.run (.string ("\u3000 " ++ text ++ "\n")) = .ok (.integer Int64.minValue) ∧
        read.run (.string " +007\t") = .ok (.integer 7) ∧
        ∀ value, read.run (.string "-9223372036854775809") ≠ .ok value := by
  obtain ⟨write, read, hwrite, hread, hback, hreads⟩ := integers_survive_text
  obtain ⟨text, htext, hblanks⟩ := hback Int64.minValue
  have hbefore : ∀ c ∈ "\u3000 ".toList, Text.isBlank c := List.all_eq_true.mp rfl
  have hafter : ∀ c ∈ "\n".toList, Text.isBlank c := List.all_eq_true.mp rfl
  have hzeros : Text.Writes ('+' :: "007".toList) 7 := .plus ⟨nofun, List.all_eq_true.mp rfl, rfl⟩
  refine ⟨hbefore, hafter, write, read, text, hwrite, hread, htext, ?_, hblanks _ _ hbefore hafter,
    (hreads _ _).mpr ⟨7, 7, hzeros, by decide, rfl, rfl⟩, fun value hvalue => ?_⟩
  · cases hwrite
    exact (Value.string.inj (Except.ok.inj htext)).symm
  · obtain ⟨n, i, hwrites, hfits, -⟩ := (hreads _ _).mp hvalue
    obtain ⟨m, hdigits, rfl⟩ := Text.writes_minus.mp hwrites
    have hm : 9223372036854775809 = m := hdigits.number
    exact absurd hfits (hm ▸ by decide)

end Cast

end SeriesQuery
