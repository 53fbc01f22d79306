import LabelledEnum.ClassId
import LabelledEnum.Proofs.Identifier
import LabelledEnum.Proofs.Text.Bytes
import Mathlib.Computability.RegularExpressions

/-!
# The language of class ids

The class ids are the words of a regular expression. Every other text has a first character after which nothing
can make a class id of it, and that character is pointed at.

* `ClassId.expression`, `ClassId.mem_expression_iff`: the regular expression, whose words are the class ids.
* `ClassId.fault?_eq_some_iff`: the fault in a text, by the characters before it.
* `ClassId.IsFirstFault`, `ClassId.isFirstFault_iff`: a fault in a text, by the bytes up to it, is the one that
  is found.
* `ClassId.parse_ok_or_first_fault`: every text is accepted as a class id or rejected at its first fault.
-/

namespace LabelledEnum.ClassId

variable {text before : Text} {fault : Fault} {c : Char}

/-! ## The regular expression -/

/-- Any one of `characters`. -/
def oneOf (characters : List Char) : RegularExpression Char := (characters.map .char).sum

/-- The letters that a class id can have. -/
def letters : List Char := "abcdefghijklmnopqrstuvwxyz".toList

/-- The digits that a class id can have. -/
def digits : List Char := "0123456789".toList

/-- A letter, and then letters, digits, dashes and slashes. What it matches is `WellFormed` and the other way
round. -/
def expression : RegularExpression Char :=
  oneOf letters * (oneOf (letters ++ digits ++ ['-', '/'])).star

/-- The expression `oneOf characters` matches exactly these characters, each as a text. -/
theorem mem_oneOf_iff {characters : List Char} :
    text ∈ (oneOf characters).matches' ↔ ∃ c ∈ characters, text = [c] := by
  induction characters with
  | nil => simp [oneOf]
  | cons first others ih =>
    have cut : oneOf (first :: others) = .char first + oneOf others := by
      rw [oneOf, List.map_cons, List.sum_cons, oneOf]
    rw [cut, RegularExpression.matches'_add, Language.mem_add, ih, RegularExpression.matches'_char,
      List.exists_mem_cons_iff]
    rfl

/-- Repeated, `oneOf characters` matches the texts of these characters. -/
theorem mem_star_oneOf_iff {characters : List Char} :
    text ∈ (oneOf characters).star.matches' ↔ ∀ c ∈ text, c ∈ characters := by
  rw [RegularExpression.matches'_star, Language.mem_kstar]
  constructor
  · rintro ⟨words, rfl, single⟩ c member
    obtain ⟨word, listed, inside⟩ := List.mem_flatten.1 member
    obtain ⟨d, allowed, rfl⟩ := mem_oneOf_iff.1 (single word listed)
    rwa [List.mem_singleton.1 inside]
  · intro allowed
    -- a text is made of words of one character each
    refine ⟨text.map fun c => [c], by simp [← List.flatMap_def], fun word listed => ?_⟩
    obtain ⟨c, member, rfl⟩ := List.mem_map.1 listed
    exact mem_oneOf_iff.2 ⟨c, allowed c member, rfl⟩

/-- A `kind` of word characters is a list of ASCII characters. -/
private theorem iff_mem_of_word {kind : Char → Bool} {characters : List Char}
    (word : ∀ c, kind c = true → isWordChar c = true)
    (ascii : ∀ code < 0x80, kind (Char.ofNat code) = true → Char.ofNat code ∈ characters)
    (listed : characters.all kind = true) : kind c = true ↔ c ∈ characters := by
  constructor
  · intro isKind
    exact of_isWordChar (fun c => kind c = true → c ∈ characters) ascii (word c isKind) isKind
  · exact List.all_eq_true.1 listed c

theorem isInitial_iff_mem : isInitial c = true ↔ c ∈ letters := by
  refine iff_mem_of_word (fun c lower => ?_) (by decide) (by decide)
  have letter : c.isAlpha = true := Bool.or_eq_true_iff.2 (.inr lower)
  simp [isWordChar, Char.isAlphanum, letter]

theorem isDigit_iff_mem : c.isDigit = true ↔ c ∈ digits := by
  refine iff_mem_of_word (fun c digit => ?_) (by decide) (by decide)
  simp [isWordChar, Char.isAlphanum, digit]

/-- A character that can follow is one of `letters` and `digits`, a dash or a slash. -/
theorem isFollowing_iff_mem : isFollowing c = true ↔ c ∈ letters ++ digits ++ ['-', '/'] := by
  have letter : c.isLower = true ↔ c ∈ letters := isInitial_iff_mem
  rw [isFollowing, Bool.or_eq_true, Bool.or_eq_true, letter, isDigit_iff_mem, isSeparator,
    List.contains_iff_mem, List.mem_append, List.mem_append]
  rfl

/-- The words of the regular `expression` are the class ids. -/
theorem mem_expression_iff : text ∈ expression.matches' ↔ WellFormed text := by
  rw [expression, RegularExpression.matches'_mul, Language.mem_mul]
  constructor
  · rintro ⟨front, first, rest, following, rfl⟩
    obtain ⟨c, letter, rfl⟩ := mem_oneOf_iff.1 first
    exact ⟨isInitial_iff_mem.2 letter,
      fun d member => isFollowing_iff_mem.2 (mem_star_oneOf_iff.1 following d member)⟩
  · intro wellFormed
    cases text with
    | nil => exact wellFormed.elim
    | cons c rest =>
      obtain ⟨initial, following⟩ := wellFormed
      exact ⟨[c], mem_oneOf_iff.2 ⟨c, isInitial_iff_mem.1 initial, rfl⟩, rest,
        mem_star_oneOf_iff.2 fun d member => isFollowing_iff_mem.1 (following d member), rfl⟩

/-! ## The first fault -/

theorem WellFormed.ne_nil (wellFormed : WellFormed text) : text ≠ [] := by
  rintro rfl
  exact wellFormed

/-- A class id goes on as a class id with each character `c` that can follow. -/
theorem wellFormed_concat_iff (started : WellFormed before) :
    WellFormed (before ++ [c]) ↔ isFollowing c = true := by
  cases before with
  | nil => exact started.elim
  | cons first rest =>
    obtain ⟨initial, following⟩ := started
    constructor
    · rintro ⟨-, following⟩
      exact following c (List.mem_append_right _ List.mem_cons_self)
    · intro follows
      refine ⟨initial, fun d member => ?_⟩
      rcases List.mem_append.1 member with member | member
      · exact following d member
      · rwa [List.mem_singleton.1 member]

/-- A beginning `front` of a class id that is not empty is a class id. -/
theorem wellFormed_of_append {front back : Text} (filled : front ≠ [])
    (whole : WellFormed (front ++ back)) : WellFormed front := by
  cases front with
  | nil => exact absurd rfl filled
  | cons first rest =>
    obtain ⟨initial, following⟩ := whole
    exact ⟨initial, fun d member => following d (List.mem_append_left _ member)⟩

/-- After `offset` bytes, the fault is the first character that cannot follow. -/
theorem faultFrom?_eq_some_iff {offset : Nat} :
    faultFrom? offset text = some fault ↔
      ∃ (before : Text) (c : Char) (after : Text), text = before ++ c :: after ∧
        (∀ d ∈ before, isFollowing d) ∧ isFollowing c = false ∧
        fault = ⟨offset + before.utf8Length, c.utf8Size⟩ := by
  induction text generalizing offset with
  | nil => simp [faultFrom?]
  | cons first rest ih =>
    rw [faultFrom?]
    split
    · next follows =>
      rw [ih]
      constructor
      · rintro ⟨before, c, after, rfl, following, stops, rfl⟩
        refine ⟨first :: before, c, after, rfl, List.forall_mem_cons.2 ⟨follows, following⟩, stops, ?_⟩
        rw [Text.utf8Length_cons, Nat.add_assoc]
      · rintro ⟨before, c, after, spelt, following, stops, rfl⟩
        cases before with
        | nil =>
          -- the first character follows, so it is not the one that stops
          cases spelt
          rw [follows] at stops
          cases stops
        | cons d others =>
          cases spelt
          refine ⟨others, c, after, rfl, (List.forall_mem_cons.1 following).2, stops, ?_⟩
          rw [Text.utf8Length_cons, Nat.add_assoc]
    · next stops =>
      constructor
      · rintro ⟨⟩
        exact ⟨[], first, rest, rfl, by simp, by simpa using stops, rfl⟩
      · rintro ⟨before, c, after, spelt, following, -, rfl⟩
        cases before with
        | nil =>
          cases spelt
          rfl
        | cons d others =>
          cases spelt
          exact absurd (following first List.mem_cons_self) stops

/-- The `fault` in `text` comes after nothing or after a class id, and the two together are no class id any
more. -/
theorem fault?_eq_some_iff :
    fault? text = some fault ↔
      ∃ (before : Text) (c : Char) (after : Text), text = before ++ c :: after ∧
        (before = [] ∨ WellFormed before) ∧ ¬WellFormed (before ++ [c]) ∧
        fault = ⟨before.utf8Length, c.utf8Size⟩ := by
  cases text with
  | nil => simp [fault?]
  | cons first rest =>
    rw [fault?]
    split
    · next initial =>
      rw [faultFrom?_eq_some_iff]
      constructor
      · rintro ⟨before, c, after, rfl, following, stops, rfl⟩
        have started : WellFormed (first :: before) := ⟨initial, following⟩
        refine ⟨first :: before, c, after, rfl, .inr started, ?_, ?_⟩
        · rw [wellFormed_concat_iff started, stops]
          exact Bool.false_ne_true
        · rw [Text.utf8Length_cons]
      · rintro ⟨before, c, after, spelt, started, ended, rfl⟩
        cases before with
        | nil =>
          -- the first character alone is a class id already
          cases spelt
          exact absurd ⟨initial, by simp⟩ ended
        | cons d others =>
          cases spelt
          have started : WellFormed (first :: others) := by simpa using started
          refine ⟨others, c, after, rfl, started.2, ?_, ?_⟩
          · rwa [wellFormed_concat_iff started, Bool.not_eq_true] at ended
          · rw [Text.utf8Length_cons]
    · next refused =>
      constructor
      · rintro ⟨⟩
        exact ⟨[], first, rest, rfl, .inl rfl, fun single => refused single.1, rfl⟩
      · rintro ⟨before, c, after, spelt, started, -, rfl⟩
        cases before with
        | nil =>
          cases spelt
          rfl
        | cons d others =>
          cases spelt
          have started : WellFormed (first :: others) := by simpa using started
          exact absurd started.1 refused

/-- The `fault` is the first character of `text` after which nothing can make a class id of it. -/
structure IsFirstFault (text : Text) (fault : Fault) : Prop where
  /-- It is a character of the text, at the bytes that come after those of a class id or of nothing. -/
  place : ∃ (before : Text) (c : Char) (after : Text), text = before ++ c :: after ∧
    fault.offset = before.utf8Length ∧ fault.length = Text.utf8Length [c] ∧
    (before = [] ∨ before ∈ expression.matches')
  /-- It ends where the text does or before. -/
  inside : fault.offset + fault.length ≤ text.utf8Length
  /-- No text that has the same bytes up to its end is a class id. -/
  final : ∀ other : Text, other.encode.extract 0 (fault.offset + fault.length) =
    text.encode.extract 0 (fault.offset + fault.length) → other ∉ expression.matches'

/-- A `text` with a first fault is no class id: it begins with its own bytes. -/
theorem IsFirstFault.not_accepted (first : IsFirstFault text fault) : text ∉ expression.matches' :=
  first.final text rfl

/-- There is no first fault in `id.text`, which is a class id. -/
theorem not_isFirstFault (id : ClassId) : ¬IsFirstFault id.text fault :=
  fun first => first.not_accepted (mem_expression_iff.2 id.wellFormed)

/-- By the bytes up to it, `fault` is the first one exactly if it is by the characters before it, as `fault?`
finds it. -/
theorem isFirstFault_iff : IsFirstFault text fault ↔ fault? text = some fault := by
  rw [fault?_eq_some_iff]
  have upTo : ∀ (before : Text) (c : Char),
      before.utf8Length + c.utf8Size = Text.utf8Length (before ++ [c]) := by
    intro before c
    rw [Text.utf8Length_append, Text.utf8Length_singleton]
  have begins : ∀ (before : Text) (c : Char) (after : Text),
      before ++ [c] <+: before ++ c :: after := fun before c after =>
    ⟨after, (List.append_cons before c after).symm⟩
  constructor
  · rintro ⟨⟨before, c, after, rfl, offset, length, started⟩, -, final⟩
    rw [Text.utf8Length_singleton] at length
    refine ⟨before, c, after, rfl, started.imp_right mem_expression_iff.1, ?_, ?_⟩
    · -- the beginning of the text that ends with the fault has the same bytes
      rw [← mem_expression_iff]
      refine final _ ?_
      rw [offset, length, upTo, Text.extract_encode_eq_iff.2 List.prefix_rfl,
        Text.extract_encode_eq_iff.2 (begins before c after)]
    · rw [← offset, ← length]
  · rintro ⟨before, c, after, rfl, started, ended, rfl⟩
    refine ⟨⟨before, c, after, rfl, rfl, (Text.utf8Length_singleton c).symm,
      started.imp_right mem_expression_iff.2⟩, ?_, fun other bytes accepted => ended ?_⟩
    · rw [upTo]
      exact Text.utf8Length_le_of_isInfix (begins before c after).isInfix
    · rw [upTo, Text.extract_encode_eq_iff.2 (begins before c after),
        Text.extract_encode_eq_iff] at bytes
      obtain ⟨back, rfl⟩ := bytes
      exact wellFormed_of_append (by simp) (mem_expression_iff.1 accepted)

/-! ## Accepting and rejecting -/

/-- With `parse`, a `text` is accepted as the class id that it spells. -/
theorem parse_eq_ok_iff {id : ClassId} : parse text = .ok id ↔ text = id.text := by
  cases text with
  | nil =>
    exact iff_of_false (by rintro ⟨⟩) fun empty => id.wellFormed.ne_nil empty.symm
  | cons first rest =>
    rw [parse]
    split
    · next fault found =>
      refine iff_of_false (by rintro ⟨⟩) fun same => ?_
      rw [fault?_eq_none_iff.2 (same ▸ id.wellFormed)] at found
      cases found
    · obtain ⟨spelt, wellFormed⟩ := id
      simp

/-- With `parse`, a `text` is rejected as a blank field if it is empty, and else at its first fault. -/
theorem parse_eq_error_iff {rejection : Rejection} :
    parse text = .error rejection ↔
      text = [] ∧ rejection = .blank .classId ∨
        ∃ fault, IsFirstFault text fault ∧ rejection = .illegalClassId text fault := by
  simp only [isFirstFault_iff]
  cases text with
  | nil =>
    simp [parse, fault?, eq_comm]
  | cons first rest =>
    rw [parse]
    split
    · next fault found => simp [found, eq_comm]
    · next none => simp [none]

/-- Every `text` that is not empty is accepted, unchanged, if it is a word of the regular `expression`, and is
rejected at its first fault if it is not. -/
theorem parse_ok_or_first_fault (filled : text ≠ []) :
    (text ∈ expression.matches' ∧ ∃ id, parse text = .ok id ∧ id.text = text) ∨
      (text ∉ expression.matches' ∧
        ∃ fault, parse text = .error (.illegalClassId text fault) ∧ IsFirstFault text fault) := by
  cases parsed : parse text with
  | ok id =>
    obtain rfl := parse_eq_ok_iff.1 parsed
    exact .inl ⟨mem_expression_iff.2 id.wellFormed, id, rfl, rfl⟩
  | error rejection =>
    rcases parse_eq_error_iff.1 parsed with ⟨empty, -⟩ | ⟨fault, first, rfl⟩
    · exact absurd empty filled
    · exact .inr ⟨first.not_accepted, fault, rfl, first⟩

/-- The fault in `größe` comes after two bytes and has two bytes itself. -/
theorem parse_ok_or_first_fault_umlaut :
    let text : Text := "gr\u00f6\u00dfe"
    text ≠ [] ∧ parse text = .error (.illegalClassId text ⟨2, 2⟩) ∧ IsFirstFault text ⟨2, 2⟩ := by
  intro text
  have filled : text ≠ [] := by decide
  have rejected : parse text = .error (.illegalClassId text ⟨2, 2⟩) := by decide +kernel
  rcases parse_ok_or_first_fault filled with ⟨-, id, accepted, -⟩ | ⟨-, fault, refused, first⟩
  · cases accepted.symm.trans rejected
  · cases refused.symm.trans rejected
    exact ⟨filled, rejected, first⟩

end LabelledEnum.ClassId
