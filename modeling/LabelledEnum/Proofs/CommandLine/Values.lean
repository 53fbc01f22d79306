import LabelledEnum.CommandLine.Setting
import LabelledEnum.Proofs.Text.Blank
import LabelledEnum.Proofs.Text.Decimal
import LabelledEnum.Proofs.Text.Split

/-!
# Values of options

The value of an option is read from its text. An integer can be written in decimal, and an alias as a name
and a directory with an equals sign between them.

* `readSigned_ofInt`, `readUnsigned_ofNat`: integers in decimal are read if they fit in 64 bits.
* `Alias.IsSpelt`, `readAlias_eq_ok_iff`: the texts that spell an alias, and the aliases that they spell.
* `Alias.IsPlain`, `Alias.IsPlain.isSpelt`: the aliases that are written as they are.
-/

namespace LabelledEnum

namespace CommandLine

variable {text digits : Text}

/-! ## Integers -/

/-- The `digits` are read up to `limit`, after the number `before` that has been read already. -/
theorem readDigits_eq_ok {limit before : Nat} {beyond : IntegerFault}
    (plain : ∀ c ∈ digits, c.isDigit = true) (fits : Nat.ofDigitChars 10 digits before ≤ limit) :
    readDigits limit beyond before digits = .ok (Nat.ofDigitChars 10 digits before) := by
  induction digits generalizing before with
  | nil => rfl
  | cons c rest ih =>
    rw [List.forall_mem_cons] at plain
    rw [Nat.ofDigitChars_cons] at fits ⊢
    -- what is read after one more digit does not get smaller any more
    have within : 10 * before + (c.toNat - '0'.toNat) ≤ limit := by
      refine Nat.le_trans ?_ fits
      rw [Nat.ofDigitChars_eq_ofDigitChars_zero]
      exact Nat.le_add_right_of_le (Nat.le_mul_of_pos_left _ (Nat.pow_pos (by decide)))
    rw [readDigits, if_pos plain.1]
    dsimp only
    rw [if_pos within, ih plain.2 fits]

/-- A number up to `limit` is read from its decimal form. -/
theorem readMagnitude_ofNat {n limit : Nat} (beyond : IntegerFault) (fits : n ≤ limit) :
    readMagnitude limit beyond (Text.ofNat n) = .ok n := by
  have spelt : Nat.ofDigitChars 10 (Text.ofNat n) 0 = n := Nat.ofDigitChars_ten_toDigits
  have read : readDigits limit beyond 0 (Text.ofNat n) = .ok n := by
    rw [readDigits_eq_ok fun c => Text.isDigit_of_mem_ofNat, spelt]
    rwa [spelt]
  obtain ⟨c, rest, written, -⟩ := Text.exists_digit_ofNat n
  rw [written] at read ⊢
  exact read

/-- An integer `n` of 64 bits is read from its decimal form. -/
theorem readSigned_ofInt {n : Int} (least : -0x8000000000000000 ≤ n) (most : n ≤ 0x7fffffffffffffff) :
    readSigned (Text.ofInt n) = .ok n := by
  cases n with
  | negSucc n =>
    have fits : n + 1 ≤ 0x8000000000000000 := by
      rw [Int.negSucc_eq] at least
      exact Int.ofNat_le.1 (Int.le_of_neg_le_neg least)
    rw [Text.ofInt, readSigned, readMagnitude_ofNat .tooSmall fits]
    rfl
  | ofNat n =>
    have fits : n ≤ 0x7fffffffffffffff := Int.ofNat_le.1 most
    have read := readMagnitude_ofNat .tooLarge fits
    obtain ⟨c, rest, written, digit⟩ := Text.exists_digit_ofNat n
    rw [written] at read
    rw [Text.ofInt, written]
    unfold readSigned
    -- a digit is no sign
    split
    · cases ‹c :: rest = []›
    · cases ‹c :: rest = _›
      exact absurd digit (by decide)
    · cases ‹c :: rest = _›
      exact absurd digit (by decide)
    · rw [read]
      rfl

/-- A natural number `n` of 64 bits is read from its decimal form. -/
theorem readUnsigned_ofNat {n : Nat} (most : n ≤ 0xffffffffffffffff) :
    readUnsigned (Text.ofNat n) = .ok n := by
  have read := readMagnitude_ofNat .tooLarge most
  obtain ⟨c, rest, written, digit⟩ := Text.exists_digit_ofNat n
  rw [written] at read ⊢
  unfold readUnsigned
  split
  · cases ‹c :: rest = []›
  · cases ‹c :: rest = _›
    exact absurd digit (by decide)
  · exact read

end CommandLine

/-! ## Aliases -/

namespace Alias

variable {entry : Alias}

/-- The `text` is a name and a directory, neither of them blank, with an equals sign between them that is the
first one. In `entry`, both are without the blanks around them. -/
def IsSpelt (entry : Alias) (text : Text) : Prop :=
  ∃ name directory : Text, text = name ++ '=' :: directory ∧ '=' ∉ name ∧
    name.trim ≠ [] ∧ directory.trim ≠ [] ∧ entry = ⟨name.trim, directory.trim⟩

/-- An alias `entry` that is written as it is: its parts are not empty and have no blanks around them, and the
equals sign after its name is the first one. -/
structure IsPlain (entry : Alias) : Prop where
  /-- There is a name. -/
  name_ne_nil : entry.name ≠ []
  /-- Nothing is cut off from it. -/
  trim_name : entry.name.trim = entry.name
  /-- It does not end too early. -/
  equals_notMem : '=' ∉ entry.name
  /-- There is a directory. -/
  directory_ne_nil : entry.directory ≠ []
  /-- Nothing is cut off from it either. -/
  trim_directory : entry.directory.trim = entry.directory

instance (entry : Alias) : Decidable entry.IsPlain :=
  decidable_of_iff (entry.name ≠ [] ∧ entry.name.trim = entry.name ∧ '=' ∉ entry.name ∧
      entry.directory ≠ [] ∧ entry.directory.trim = entry.directory)
    ⟨fun ⟨named, name, absent, placed, directory⟩ => ⟨named, name, absent, placed, directory⟩,
      fun plain => ⟨plain.name_ne_nil, plain.trim_name, plain.equals_notMem, plain.directory_ne_nil,
        plain.trim_directory⟩⟩

/-- The alias `entry` as it is written on the command line. -/
def text (entry : Alias) : Text := entry.name ++ '=' :: entry.directory

/-- What is written for a plain alias spells it. -/
theorem IsPlain.isSpelt (plain : entry.IsPlain) : entry.IsSpelt entry.text := by
  refine ⟨entry.name, entry.directory, rfl, plain.equals_notMem, ?_, ?_, ?_⟩
  · rw [plain.trim_name]
    exact plain.name_ne_nil
  · rw [plain.trim_directory]
    exact plain.directory_ne_nil
  · rw [plain.trim_name, plain.trim_directory]

end Alias

/-- Exactly the texts that spell an alias are read by `readAlias`, and as that alias. -/
theorem CommandLine.readAlias_eq_ok_iff {text : Text} {entry : Alias} :
    readAlias text = .ok entry ↔ entry.IsSpelt text := by
  constructor
  · intro read
    unfold readAlias at read
    split at read
    · cases read
    · next sign directory behind =>
      dsimp only at read
      split at read
      · cases read
      · next filled =>
        cases read
        -- the first character behind the name is the equals sign
        obtain rfl : sign = '=' := by
          have nonempty : text.dropWhile (· ≠ '=') ≠ [] := behind ▸ List.cons_ne_nil sign directory
          have stop := List.head_dropWhile_not (· ≠ '=') nonempty
          simp only [behind, List.head_cons] at stop
          simpa using stop
        have whole := List.takeWhile_append_dropWhile (p := (· ≠ '=')) (l := text)
        rw [behind] at whole
        refine ⟨_, directory, whole.symm, fun member => ?_, (not_or.1 filled).1, (not_or.1 filled).2, rfl⟩
        simpa using List.all_eq_true.1 List.all_takeWhile _ member
  · rintro ⟨name, directory, rfl, absent, named, placed, rfl⟩
    obtain ⟨before, behind⟩ := Text.span_append_cons absent directory
    rw [readAlias, behind, before]
    exact if_neg (not_or.2 ⟨named, placed⟩)

end LabelledEnum
