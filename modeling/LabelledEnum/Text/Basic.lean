/-!
# Text

A text is a list of Unicode code points. The library reads and writes texts only; strings and bytes
appear where a text enters or leaves the program.

* `Text`: the type, into which string literals are coerced.
* `Text.upper`, `Text.lower`: change of case on the ASCII letters.
* `Text.isBefore`: the order of texts by their code points.
* `Text.encode`, `Text.decode?`: UTF-8 bytes of a text, and back.
* `Text.utf8Length`: how many bytes a text takes in UTF-8.
* `Text.maxRoom`: how many bytes a text can take at most.
* `Text.decode?_eq_some_iff`: bytes are read as a text exactly when they are the bytes of that text.
-/

namespace LabelledEnum

/-- A text is a finite sequence of Unicode code points. -/
abbrev Text := List Char

/-- A literal of type `String` may stand wherever a `Text` is expected. -/
instance : Coe String Text := ⟨String.toList⟩

namespace Text

/-- The `text` with its ASCII letters in upper case; all other characters stay. -/
def upper (text : Text) : Text := text.map Char.toUpper

/-- The `text` with its ASCII letters in lower case; all other characters stay. -/
def lower (text : Text) : Text := text.map Char.toLower

/-- Whether `first` stands before `second` in the order of their code points. -/
def isBefore (first second : Text) : Bool := first.lex second fun c d => decide (c < d)

/-- The bytes of `text` in UTF-8. -/
def encode (text : Text) : ByteArray := (String.ofList text).toUTF8

/-- The number of bytes of `text` in UTF-8, which is the size of `encode text`. -/
def utf8Length (text : Text) : Nat := (encode text).size

/-- The most bytes that a text can take, however much memory there is: `2 ^ 63 - 1`, half of an address space of 64
bits. -/
def maxRoom : Nat := 9223372036854775807

/-- The text that `bytes` spell in UTF-8, if they spell one. It undoes `encode`. -/
def decode? (bytes : ByteArray) : Option Text := (String.fromUTF8? bytes).map String.toList

/-- With `decode?`, `bytes` are read as `text` exactly when they are the bytes of that text. -/
theorem decode?_eq_some_iff {bytes : ByteArray} {text : Text} :
    decode? bytes = some text ↔ bytes = encode text := by
  unfold decode? String.fromUTF8? encode
  constructor
  · intro h
    obtain ⟨string, found, rfl⟩ := Option.map_eq_some_iff.1 h
    split at found
    · cases found
      simp [String.fromUTF8]
    · cases found
  · rintro rfl
    rw [String.toUTF8_eq_toByteArray, dif_pos (String.ofList text).isValidUTF8]
    exact congrArg some (String.toList_ofList ..)

/-- Decoding the bytes of `text` gives `text` back. -/
@[simp]
theorem decode?_encode (text : Text) : decode? (encode text) = some text :=
  decode?_eq_some_iff.2 rfl

end Text

end LabelledEnum
