import LabelledEnum.Text.Basic

/-!
# Bytes of a text

The bytes of a text are those of its characters one after the other, so a text begins with another one exactly
when its bytes do.

* `Text.encode_inj`: a text is known by its bytes.
* `Text.encode_append`, `Text.utf8Length_append`: the bytes of two texts together.
* `Text.utf8Length_eq_length`: a text of ASCII characters has as many bytes as characters.
* `Text.utf8Length_le_of_isInfix`: a part of a text has no more bytes.
* `Text.extract_encode_append`: the first bytes of a text that begins with another one.
* `Text.extract_encode_eq_iff`: beginning with the bytes of a text is beginning with the text.
-/

namespace LabelledEnum.Text

variable {front text : Text}

theorem encode_eq (text : Text) : encode text = text.utf8Encode := by
  rw [encode, String.toUTF8_eq_toByteArray, String.toByteArray_ofList]

/-- Texts with the same bytes are the same, since `decode?` gives them back. -/
theorem encode_inj {other : Text} : encode text = encode other ↔ text = other := by
  refine ⟨fun same => ?_, congrArg encode⟩
  have decoded := decode?_encode text
  rw [same, decode?_encode] at decoded
  exact (Option.some.inj decoded).symm

/-- The bytes of `front ++ back` are those of the first text and then those of the second one. -/
theorem encode_append (front back : Text) : encode (front ++ back) = encode front ++ encode back := by
  rw [encode_eq, encode_eq, encode_eq, List.utf8Encode_append]

@[simp]
theorem utf8Length_append (front back : Text) :
    utf8Length (front ++ back) = utf8Length front + utf8Length back := by
  rw [utf8Length, encode_append, ByteArray.size_append, utf8Length, utf8Length]

@[simp]
theorem utf8Length_nil : utf8Length [] = 0 := rfl

@[simp]
theorem utf8Length_singleton (c : Char) : utf8Length [c] = c.utf8Size := by
  rw [utf8Length, encode_eq, List.utf8Encode_singleton, List.size_toByteArray,
    String.length_utf8EncodeChar]

theorem utf8Length_cons (c : Char) (rest : Text) :
    utf8Length (c :: rest) = c.utf8Size + utf8Length rest := by
  rw [← List.singleton_append, utf8Length_append, utf8Length_singleton]

/-- A text of ASCII characters has one byte for each of them, so `utf8Length` is its length. -/
theorem utf8Length_eq_length (ascii : ∀ c ∈ text, c.toNat < 0x80) : utf8Length text = text.length := by
  induction text with
  | nil => rfl
  | cons c rest ih =>
    rw [List.forall_mem_cons] at ascii
    have single : c.utf8Size = 1 := Char.utf8Size_eq_one_iff.2 (Nat.le_of_lt_succ ascii.1)
    rw [utf8Length_cons, single, ih ascii.2, List.length_cons, Nat.add_comm]

/-- A `part` of a text has no more bytes than the text. -/
theorem utf8Length_le_of_isInfix {part : Text} (inside : part <:+: text) :
    utf8Length part ≤ utf8Length text := by
  obtain ⟨front, back, rfl⟩ := inside
  simp only [utf8Length_append]
  omega

/-- A text that begins with `front` begins with its bytes. -/
theorem extract_encode_append (front back : Text) :
    (encode (front ++ back)).extract 0 (utf8Length front) = encode front := by
  rw [encode_append]
  exact ByteArray.extract_append_eq_left rfl

/-- A text begins with the bytes of `front` exactly when it begins with that text. -/
theorem extract_encode_eq_iff :
    (encode text).extract 0 (utf8Length front) = encode front ↔ front <+: text := by
  constructor
  · intro bytes
    have long : utf8Length front ≤ (encode text).size := by
      have size := congrArg ByteArray.size bytes
      rw [ByteArray.size_extract] at size
      change _ = utf8Length front at size
      omega
    -- no character can begin with the bytes of others and go on
    refine List.isPrefix_of_utf8Encode_append_eq_utf8Encode
      ((encode text).extract (utf8Length front) (encode text).size) ?_
    rw [← encode_eq, ← encode_eq, ← bytes, ByteArray.extract_append_extract,
      Nat.zero_min, Nat.max_eq_right long, ByteArray.extract_zero_size]
  · rintro ⟨back, rfl⟩
    exact extract_encode_append front back

end LabelledEnum.Text
