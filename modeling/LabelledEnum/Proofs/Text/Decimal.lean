import LabelledEnum.Text.Decimal

/-!
# Reading decimal numbers

* `Text.readInt?`: the integer that a text writes in decimal, with the fewest digits.
* `Text.readInt?_eq_some_iff`: reading is the inverse of writing.
* `Text.mem_ofInt`, `Text.ofInt_ne_nil`: the characters of an integer in decimal, of which there are some.
* `Text.isDigit_of_mem_ofNat`, `Text.exists_digit_ofNat`: a natural number in decimal has digits only, and there
  is a first one.
-/

namespace LabelledEnum.Text

/-- The integer that the digits of a text spell, with a minus sign or without. -/
def spelt : Text → Int
  | '-' :: digits => -(Nat.ofDigitChars 10 digits 0 : Int)
  | digits => Nat.ofDigitChars 10 digits 0

/-- The integer that is written as `text` in decimal, if there is one. -/
def readInt? (text : Text) : Option Int := if ofInt (spelt text) = text then some (spelt text) else none

theorem isDigit_of_mem_ofNat {n : Nat} {c : Char} (member : c ∈ ofNat n) : c.isDigit = true :=
  Nat.isDigit_of_mem_toDigits (by decide) (by decide) member

/-- The natural number `n` in decimal has a first digit. -/
theorem exists_digit_ofNat (n : Nat) : ∃ c rest, ofNat n = c :: rest ∧ c.isDigit = true := by
  obtain ⟨c, rest, written⟩ :=
    List.exists_cons_of_ne_nil (show ofNat n ≠ [] from Nat.toDigits_ne_nil)
  exact ⟨c, rest, written, isDigit_of_mem_ofNat (written ▸ List.mem_cons_self)⟩

/-- A text that begins with the natural number `n` begins with a digit. -/
theorem isDigit_of_mem_head?_ofNat_append {n : Nat} {rest : Text} {c : Char}
    (first : c ∈ (ofNat n ++ rest).head?) : c.isDigit = true := by
  obtain ⟨d, others, written, digit⟩ := exists_digit_ofNat n
  rw [written] at first
  cases first
  exact digit

theorem ne_minus_of_mem_ofNat {n : Nat} {c : Char} (member : c ∈ ofNat n) : c ≠ '-' := by
  rintro rfl
  exact absurd (isDigit_of_mem_ofNat member) (by decide)

theorem spelt_ofInt (n : Int) : spelt (ofInt n) = n := by
  cases n with
  | ofNat n =>
    rw [ofInt]
    unfold spelt
    split
    · next digits written =>
      -- the digits of a natural number do not begin with a minus sign
      exact absurd rfl (ne_minus_of_mem_ofNat (n := n) (written ▸ List.mem_cons_self))
    · exact congrArg Int.ofNat Nat.ofDigitChars_ten_toDigits
  | negSucc n =>
    rw [ofInt, spelt, ofNat, Nat.ofDigitChars_ten_toDigits]
    exact (Int.negSucc_eq n).symm

/-- With `readInt?`, a text is read as an integer exactly when the integer is written so. -/
theorem readInt?_eq_some_iff {text : Text} {n : Int} : readInt? text = some n ↔ text = ofInt n := by
  unfold readInt?
  constructor
  · intro read
    split at read
    · next written =>
      cases read
      exact written.symm
    · cases read
  · rintro rfl
    rw [spelt_ofInt, if_pos rfl]

theorem ofInt_ne_nil (n : Int) : ofInt n ≠ [] := by
  intro empty
  have unread : readInt? [] = none := by decide
  cases unread.symm.trans (readInt?_eq_some_iff.2 empty.symm)

/-- An integer in decimal, as `ofInt` writes it, has digits and minus signs only. -/
theorem mem_ofInt {n : Int} {c : Char} (member : c ∈ ofInt n) : c.isDigit = true ∨ c = '-' := by
  cases n with
  | ofNat n => exact .inl (isDigit_of_mem_ofNat member)
  | negSucc n =>
    rcases List.mem_cons.1 member with rfl | member
    · exact .inr rfl
    · exact .inl (isDigit_of_mem_ofNat member)

end LabelledEnum.Text
