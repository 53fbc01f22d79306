import LabelledEnum.Text.Basic

/-!
# The order of texts

* `Text.isBefore_eq_true_iff`, `Text.isBefore_eq_false_iff`: the order is lexicographic.
* `Text.not_isBefore_trans`, `Text.not_isBefore_total`, `Text.eq_of_not_isBefore`: it is a linear order.
* `Text.bytes`, `Text.BytesBefore`: the bytes of a text in UTF-8, and the order of texts by their bytes.
* `Text.bytesBefore_iff`: ASCII texts are in the same order by their bytes as by their code points.
-/

namespace LabelledEnum.Text

/-- What `isBefore` computes is the lexicographic order of the library. -/
theorem isBefore_eq_true_iff {first second : Text} :
    isBefore first second = true ↔ List.Lex (· < ·) first second := by
  unfold isBefore
  rw [List.lex_eq_true_iff_lex]
  simp only [decide_eq_true_eq]

/-- Where `isBefore` fails, so does the lexicographic order of the library. -/
theorem isBefore_eq_false_iff {first second : Text} :
    isBefore first second = false ↔ ¬List.Lex (· < ·) first second := by
  rw [← isBefore_eq_true_iff, Bool.not_eq_true]

/-- A text that does not stand before a second one, which does not stand before a third one, does not stand
before the third by `isBefore`. -/
theorem not_isBefore_trans {first second third : Text} (once : isBefore second first = false)
    (twice : isBefore third second = false) : isBefore third first = false := by
  rw [isBefore_eq_false_iff, List.not_lex_lt] at once twice ⊢
  exact List.le_trans once twice

/-- Of any two texts, one does not stand before the other: either `first` may come first or `second`. -/
theorem not_isBefore_total (first second : Text) :
    isBefore second first = false ∨ isBefore first second = false := by
  rw [isBefore_eq_false_iff, isBefore_eq_false_iff, List.not_lex_lt, List.not_lex_lt]
  exact List.le_total first second

/-- Texts of which neither stands before the other are equal, so `isBefore` orders all texts. -/
theorem eq_of_not_isBefore {first second : Text} (once : isBefore second first = false)
    (back : isBefore first second = false) : first = second := by
  rw [isBefore_eq_false_iff, List.not_lex_lt] at once back
  exact List.le_antisymm once back

/-- The bytes of `text` in UTF-8, as a list. -/
def bytes (text : Text) : List UInt8 := (encode text).data.toList

@[simp]
theorem bytes_nil : bytes [] = [] := rfl

/-- An ASCII character `c` is one byte. -/
theorem bytes_cons {c : Char} (ascii : c.toNat < 0x80) (rest : Text) :
    bytes (c :: rest) = c.val.toUInt8 :: bytes rest := by
  have single : c.utf8Size = 1 := by
    rw [Char.utf8Size_eq_one_iff, UInt32.le_iff_toNat_le]
    exact Nat.le_of_lt_succ ascii
  unfold bytes encode
  rw [String.toUTF8_eq_toByteArray, String.toUTF8_eq_toByteArray, String.toByteArray_ofList,
    String.toByteArray_ofList, List.utf8Encode_cons, List.utf8Encode_singleton,
    String.utf8EncodeChar_eq_singleton single]
  simp

private theorem toNat_toUInt8_val {c : Char} (ascii : c.toNat < 0x80) :
    c.val.toUInt8.toNat = c.toNat := by
  rw [UInt32.toNat_toUInt8]
  exact Nat.mod_eq_of_lt (Nat.lt_trans ascii (by decide))

/-- The bytes of `first` stand before those of `second` in lexicographic order. -/
def BytesBefore (first second : Text) : Prop := List.Lex (· < ·) (bytes first) (bytes second)

/-- What `BytesBefore` says of two texts it does not say the other way round. -/
theorem BytesBefore.asymm {first second : Text} (before : BytesBefore first second) :
    ¬BytesBefore second first :=
  List.lex_asymm (fun less => UInt8.lt_asymm less) before

/-- ASCII texts are in the same order by `BytesBefore` as by their code points. -/
theorem bytesBefore_iff {first second : Text} (firstAscii : ∀ c ∈ first, c.toNat < 0x80)
    (secondAscii : ∀ c ∈ second, c.toNat < 0x80) :
    BytesBefore first second ↔ isBefore first second = true := by
  rw [isBefore_eq_true_iff]
  unfold BytesBefore
  induction first generalizing second with
  | nil =>
    cases second with
    | nil => simp
    | cons d others => simp [bytes_cons (secondAscii d List.mem_cons_self)]
  | cons c rest ih =>
    cases second with
    | nil => simp
    | cons d others =>
      rw [List.forall_mem_cons] at firstAscii secondAscii
      obtain ⟨hc, restAscii⟩ := firstAscii
      obtain ⟨hd, othersAscii⟩ := secondAscii
      -- both orders compare the first characters, and the rest only if those are equal
      have less : c.val.toUInt8 < d.val.toUInt8 ↔ c < d := by
        rw [UInt8.lt_iff_toNat_lt, toNat_toUInt8_val hc, toNat_toUInt8_val hd, Char.lt_def,
          UInt32.lt_iff_toNat_lt]
        rfl
      have same : c.val.toUInt8 = d.val.toUInt8 ↔ c = d := by
        rw [← UInt8.toNat_inj, toNat_toUInt8_val hc, toNat_toUInt8_val hd, Char.toNat_inj]
      rw [bytes_cons hc, bytes_cons hd, List.cons_lex_cons_iff, List.cons_lex_cons_iff, less, same,
        ih restAscii othersAscii]

end LabelledEnum.Text
