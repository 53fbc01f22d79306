import LabelledEnum.Constant
import LabelledEnum.Text.Blank

/-!
# The characters of an identifier

* `toNat_lt_of_isWordChar`, `of_isWordChar`: word characters are ASCII characters, which can be checked one by
  one.
* `isBlank_of_isWordChar`, `isWordChar_toUpper`, `isAlphanum_toUpper`: what comes of that.
* `isWordChar_of_mem_sanitize`, `sanitize_eq_nil_iff`: a text stands for an identifier of word characters only, and
  one that is not empty for one that is not empty.
* `sanitize_eq_self_iff`: the texts of word characters stand for themselves.
* `isWordChar_of_mem_constantName`: the name of its constant has word characters only.
* `isAlphanum_of_mem_labelOf`, `length_labelOf`: its label has letters, digits and spaces only, and is as long.
* `upper_underscored_labelOf`: its label gives the name of its constant back.
-/

namespace LabelledEnum

/-- Word characters are ASCII characters, by the bounds that `isWordChar` tests. -/
theorem toNat_lt_of_isWordChar {c : Char} (word : isWordChar c = true) : c.toNat < 0x80 := by
  change c.val.toNat < 0x80
  delta isWordChar Char.isAlphanum Char.isAlpha Char.isUpper Char.isLower Char.isDigit at word
  simp only [Bool.or_eq_true, Bool.and_eq_true, decide_eq_true_eq, beq_iff_eq, ge_iff_le,
    UInt32.le_iff_toNat_le] at word
  -- each class of word characters lies below the limit
  rcases word with ((⟨-, upper⟩ | ⟨-, lower⟩) | ⟨-, digit⟩) | rfl
  · exact Nat.lt_of_le_of_lt upper (by decide)
  · exact Nat.lt_of_le_of_lt lower (by decide)
  · exact Nat.lt_of_le_of_lt digit (by decide)
  · decide

/-- What `holds` of all ASCII characters, which can be checked one by one, holds of a word character. -/
theorem of_isWordChar (holds : Char → Prop) (ascii : ∀ code < 0x80, holds (Char.ofNat code)) {c : Char}
    (word : isWordChar c = true) : holds c := by
  have found := ascii c.toNat (toNat_lt_of_isWordChar word)
  rwa [Char.ofNat_toNat] at found

theorem isBlank_of_isWordChar {c : Char} (word : isWordChar c = true) : isBlank c = false :=
  of_isWordChar (fun c => isWordChar c = true → isBlank c = false) (by decide) word word

theorem isWordChar_toUpper {c : Char} (word : isWordChar c = true) : isWordChar c.toUpper = true :=
  of_isWordChar (fun c => isWordChar c = true → isWordChar c.toUpper = true) (by decide) word word

/-- A letter or digit stays one under `Char.toUpper`. -/
theorem isAlphanum_toUpper {c : Char} (plain : c.isAlphanum = true) :
    c.toUpper.isAlphanum = true := by
  have word : isWordChar c = true := by simp [isWordChar, plain]
  exact of_isWordChar (fun c => c.isAlphanum = true → c.toUpper.isAlphanum = true) (by decide) word
    plain

theorem toUpper_toUpper {c : Char} (word : isWordChar c = true) : c.toUpper.toUpper = c.toUpper :=
  of_isWordChar (fun c => c.toUpper.toUpper = c.toUpper) (by decide) word

private theorem isWordChar_of_mem_sanitizeFrom {inRun : Bool} {text : Text} {c : Char}
    (member : c ∈ sanitizeFrom inRun text) : isWordChar c = true := by
  induction text generalizing inRun with
  | nil => cases member
  | cons d rest ih =>
    rw [sanitizeFrom] at member
    split at member
    · next word =>
      rcases List.mem_cons.1 member with rfl | later
      · exact word
      · exact ih later
    · -- a run of other characters leaves one `_` or nothing
      split at member
      · exact ih member
      · rcases List.mem_cons.1 member with rfl | later
        · rfl
        · exact ih later

/-- The identifier `sanitize text` has word characters only. -/
theorem isWordChar_of_mem_sanitize {text : Text} {c : Char} (member : c ∈ sanitize text) :
    isWordChar c = true :=
  isWordChar_of_mem_sanitizeFrom member

/-- Only the empty text has the empty identifier, since `sanitize` writes something for each run. -/
theorem sanitize_eq_nil_iff {text : Text} : sanitize text = [] ↔ text = [] := by
  constructor
  · intro nothing
    cases text with
    | nil => rfl
    | cons c rest =>
      -- the first character is kept, or begins a run that is replaced
      rw [sanitize, sanitizeFrom] at nothing
      split at nothing <;> cases nothing
  · rintro rfl
    rfl

private theorem sanitizeFrom_eq_self {text : Text} (words : ∀ c ∈ text, isWordChar c = true)
    (inRun : Bool) : sanitizeFrom inRun text = text := by
  induction text generalizing inRun with
  | nil => rfl
  | cons c rest ih =>
    rw [List.forall_mem_cons] at words
    rw [sanitizeFrom, if_pos words.1, ih words.2]

/-- The texts of word characters, and no others, are their own identifiers under `sanitize`. -/
theorem sanitize_eq_self_iff {text : Text} :
    sanitize text = text ↔ ∀ c ∈ text, isWordChar c = true := by
  constructor
  · intro same c member
    exact isWordChar_of_mem_sanitize (same ▸ member)
  · intro words
    exact sanitizeFrom_eq_self words false

/-- The name of a constant has word characters only if its `identifier` has. -/
theorem isWordChar_of_mem_constantName {identifier : Text}
    (words : ∀ c ∈ identifier, isWordChar c = true) {c : Char}
    (member : c ∈ constantName identifier) : isWordChar c = true := by
  obtain ⟨d, spelt, rfl⟩ := List.mem_map.1 member
  exact isWordChar_toUpper (words d spelt)

/-! ## Labels -/

/-- What `labelFrom` writes is as long as `identifier`, since every character of the one is written for a
character of the other. -/
private theorem length_labelFrom (wordStart : Bool) (identifier : Text) :
    (labelFrom wordStart identifier).length = identifier.length := by
  induction identifier generalizing wordStart with
  | nil => rfl
  | cons c rest ih =>
    rw [labelFrom]
    split
    · rw [List.length_cons, List.length_cons, ih]
    · split <;> rw [List.length_cons, List.length_cons, ih]

/-- The label of a constant is as long as its `identifier`. -/
theorem length_labelOf (identifier : Text) : (labelOf identifier).length = identifier.length :=
  length_labelFrom true identifier

private theorem isAlphanum_of_mem_labelFrom {wordStart : Bool} {identifier : Text}
    (words : ∀ c ∈ identifier, isWordChar c = true) {c : Char}
    (member : c ∈ labelFrom wordStart identifier) : c.isAlphanum = true ∨ c = ' ' := by
  induction identifier generalizing wordStart with
  | nil => cases member
  | cons d rest ih =>
    rw [List.forall_mem_cons] at words
    rw [labelFrom] at member
    split at member
    · rcases List.mem_cons.1 member with rfl | member
      · exact .inr rfl
      · exact ih words.2 member
    · next other =>
      -- a word character other than `_` is a letter or a digit
      have plain : d.isAlphanum = true := by simpa [isWordChar, other] using words.1
      split at member
      · rcases List.mem_cons.1 member with rfl | member
        · exact .inl (isAlphanum_toUpper plain)
        · exact ih words.2 member
      · rcases List.mem_cons.1 member with rfl | member
        · exact .inl plain
        · exact ih words.2 member

/-- The label of an `identifier` has letters, digits and spaces only. -/
theorem isAlphanum_of_mem_labelOf {identifier : Text}
    (words : ∀ c ∈ identifier, isWordChar c = true) {c : Char} (member : c ∈ labelOf identifier) :
    c.isAlphanum = true ∨ c = ' ' :=
  isAlphanum_of_mem_labelFrom words member

/-- The `text` with a `_` for each space. -/
def Text.underscored (text : Text) : Text := text.map fun c => if c = ' ' then '_' else c

private theorem upper_underscored_labelFrom {identifier : Text}
    (words : ∀ c ∈ identifier, isWordChar c = true) (wordStart : Bool) :
    (labelFrom wordStart identifier).underscored.upper = constantName identifier := by
  induction identifier generalizing wordStart with
  | nil => rfl
  | cons c rest ih =>
    rw [List.forall_mem_cons] at words
    have later : ∀ wordStart, ((labelFrom wordStart rest).map
        fun c => if c = ' ' then '_' else c).map Char.toUpper = rest.map Char.toUpper := ih words.2
    have noSpace : ∀ {d : Char}, isWordChar d = true → d ≠ ' ' := by
      rintro d word rfl
      exact absurd word (by decide)
    rw [labelFrom, constantName, Text.upper, Text.upper, Text.underscored]
    split
    · -- the space that stands for `_` becomes `_` again
      next underscore =>
      rw [List.map_cons, List.map_cons, List.map_cons, later, if_pos rfl, underscore]
    · split
      · rw [List.map_cons, List.map_cons, List.map_cons, later,
          if_neg (noSpace (isWordChar_toUpper words.1)), toUpper_toUpper words.1]
      · rw [List.map_cons, List.map_cons, List.map_cons, later, if_neg (noSpace words.1)]

/-- With its spaces written as `_` and its letters in upper case, the label of an `identifier` is the name of
its constant. -/
theorem upper_underscored_labelOf {identifier : Text}
    (words : ∀ c ∈ identifier, isWordChar c = true) :
    (labelOf identifier).underscored.upper = constantName identifier :=
  upper_underscored_labelFrom words true

end LabelledEnum
