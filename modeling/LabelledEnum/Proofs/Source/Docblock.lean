import LabelledEnum.Proofs.Source.Page
import LabelledEnum.Proofs.Text.Blank
import LabelledEnum.Source.Docblock
import Mathlib.Data.List.Chain

/-!
# What free text can do to a docblock

A comment ends where its closing mark stands for the first time. Free text is written line by line behind an
opening that ends with a space, with every mark in it broken up, so it cannot end the comment.

* `Text.occurrences`, `Text.occurrences_unlines_concat`: how often a mark stands in a text, and in one made of
  lines.
* `Docblock.IsOpen`: no closing mark stands in the text.
* `Docblock.isOpen_escape`: none stands in an escaped text.
* `Docblock.innerLines`, `Docblock.of_mem_innerLines`: the lines between the first and the last one.
* `Docblock.closes_with_last_line`: the comment that is written ends with its last line and nowhere before.
-/

namespace LabelledEnum

/-! ## Marks -/

/-- The number of places in a text at which `mark` begins. -/
def Text.occurrences (mark : Text) : Text → Nat
  | [] => 0
  | c :: rest => (if mark <+: c :: rest then 1 else 0) + occurrences mark rest

section

variable {mark : Text} {separator : Char} (filled : mark ≠ []) (apart : separator ∉ mark)
include filled apart

/-- A `mark` without the separator begins at no place where it would run over the separator. -/
private theorem isPrefix_append_cons_iff (first second : Text) :
    mark <+: first ++ separator :: second ↔ mark <+: first := by
  refine ⟨fun ⟨rest, spelt⟩ => ?_, fun begins => begins.trans (List.prefix_append _ _)⟩
  rcases List.append_eq_append_iff.1 spelt with ⟨more, rfl, -⟩ | ⟨tail, rfl, follows⟩
  · exact List.prefix_append _ _
  · cases tail with
    | nil => exact (List.append_nil first).symm ▸ List.prefix_rfl
    | cons c others =>
      obtain ⟨rfl, -⟩ := List.cons.inj follows
      exact absurd (List.mem_append_right _ List.mem_cons_self) apart

/-- With a separator between them, texts have as many places for `mark` as each of them alone. -/
theorem Text.occurrences_append_cons (first second : Text) :
    occurrences mark (first ++ separator :: second) =
      occurrences mark first + occurrences mark second := by
  induction first with
  | nil =>
    have elsewhere : ¬mark <+: [] ++ separator :: second := by
      rw [isPrefix_append_cons_iff filled apart, List.prefix_nil]
      exact filled
    rw [List.nil_append] at elsewhere ⊢
    rw [occurrences, occurrences, if_neg elsewhere]
  | cons c rest ih =>
    rw [List.cons_append, occurrences, occurrences, ih, ← List.cons_append]
    simp only [isPrefix_append_cons_iff filled apart, Nat.add_assoc]

end

/-- A `mark` on one line that stands in none of the lines but the last stands in the text as often as there. -/
theorem Text.occurrences_unlines_concat {mark : Text} (filled : mark ≠ []) (single : '\n' ∉ mark)
    {lines : List Text} (elsewhere : ∀ line ∈ lines, occurrences mark line = 0) (last : Text) :
    occurrences mark (unlines (lines ++ [last])) = occurrences mark last := by
  have split : ∀ (line : Text) (rest : List Text), occurrences mark (unlines (line :: rest)) =
      occurrences mark line + occurrences mark (unlines rest) := by
    intro line rest
    rw [← occurrences_append_cons filled single]
    simp [unlines]
  induction lines with
  | nil => exact split last []
  | cons line rest ih =>
    rw [List.forall_mem_cons] at elsewhere
    rw [List.cons_append, split, elsewhere.1, ih elsewhere.2, Nat.zero_add]

namespace Docblock

/-- The mark that ends a comment. -/
def closingMark : Text := "*/"

/-- No `closingMark` stands in `text`. -/
def IsOpen (text : Text) : Prop := text.IsChain fun c d => ¬(c = '*' ∧ d = '/')

instance decidableIsOpen (text : Text) : Decidable (IsOpen text) :=
  inferInstanceAs (Decidable (text.IsChain _))

theorem occurrences_closingMark {text : Text} (isOpen : IsOpen text) :
    Text.occurrences closingMark text = 0 := by
  induction text with
  | nil => rfl
  | cons c rest ih =>
    obtain ⟨seam, inner⟩ := List.isChain_cons.1 isOpen
    have elsewhere : ¬closingMark <+: c :: rest := by
      rintro ⟨others, spelt⟩
      obtain ⟨rfl, rfl⟩ := List.cons.inj spelt
      exact seam '/' rfl ⟨rfl, rfl⟩
    rw [Text.occurrences, if_neg elsewhere, ih inner]

/-! ## Free text -/

/-- Breaking up marks does not change how `text` begins. -/
theorem head?_escape (text : Text) : (escape text).head? = text.head? := by
  fun_cases escape text <;> rfl

/-- No `closingMark` stands in an escaped text. -/
theorem isOpen_escape (text : Text) : IsOpen (escape text) := by
  fun_induction escape text with
  | case1 => exact List.isChain_nil
  | case2 rest ih =>
    -- the slash of a broken mark can only be the end of a mark, and a backslash stands before it
    have broken : IsOpen ('/' :: escape rest) := List.isChain_cons.2 ⟨by simp, ih⟩
    exact List.isChain_cons_cons.2 ⟨by decide, List.isChain_cons_cons.2 ⟨by decide, broken⟩⟩
  | case3 c rest unmarked ih =>
    refine List.isChain_cons.2 ⟨fun d next => ?_, ih⟩
    rintro ⟨rfl, rfl⟩
    rw [head?_escape] at next
    obtain ⟨others, rfl⟩ := List.head?_eq_some_iff.1 next
    exact unmarked others rfl rfl

/-- A character that `escape` writes is one of `text`, or the backslash. -/
theorem mem_of_mem_escape {text : Text} {c : Char} (member : c ∈ escape text) :
    c ∈ text ∨ c = '\\' := by
  fun_induction escape text with
  | case1 => cases member
  | case2 rest ih =>
    rcases List.mem_cons.1 member with rfl | member
    · exact .inl List.mem_cons_self
    · grind
  | case3 d rest unmarked ih =>
    rcases List.mem_cons.1 member with rfl | member
    · exact .inl List.mem_cons_self
    · exact (ih member).imp_left (List.mem_cons_of_mem d)

/-- What `content` writes of a line is one line. -/
theorem newline_notMem_content {line : Text} (whole : '\n' ∉ line) : '\n' ∉ content line := by
  intro member
  obtain ⟨blanks, -, spelt⟩ := Text.exists_trimEnd_append_blanks line
  rcases mem_of_mem_escape member with member | same
  · exact whole (by rw [spelt]; exact List.mem_append_left _ member)
  · cases same

/-! ## Lines -/

/-- The lines between `opening` and `closing`. -/
def innerLines (author description : Text) : List Text :=
  authorLines author ++ descriptionLines description

/-- All `lines` of the comment are the inner ones with the fixed ones around them. -/
theorem lines_eq (author description : Text) :
    lines author description = opening :: (innerLines author description ++ [closing]) := rfl

/-- What stands before free text in the lines of a comment, apart from lines without free text. -/
def leads : List Text := [" * @author ", " *         ", " * "]

variable {author description line : Text}

/-- A `line` inside the comment shows free text behind one of the `leads`, or it is empty. -/
theorem of_mem_innerLines (member : line ∈ innerLines author description) :
    (∃ lead ∈ leads, ∃ free, '\n' ∉ free ∧ line = lead ++ content free) ∨ line = " *" := by
  rcases List.mem_append.1 member with member | member
  · unfold authorLines at member
    split at member
    · cases member
    · next first rest cut =>
      have whole : ∀ free ∈ first :: rest, '\n' ∉ free :=
        fun free listed => Text.newline_notMem_of_mem_lines (cut ▸ listed)
      rw [List.forall_mem_cons] at whole
      rcases List.mem_cons.1 member with rfl | member
      · exact .inl ⟨_, by simp [leads], first, whole.1, rfl⟩
      · obtain ⟨free, listed, rfl⟩ := List.mem_map.1 member
        exact .inl ⟨_, by simp [leads], free, whole.2 free listed, rfl⟩
  · obtain ⟨free, listed, rfl⟩ := List.mem_map.1 member
    unfold descriptionLine
    split
    · exact .inr rfl
    · exact .inl ⟨_, by simp [leads], free, Text.newline_notMem_of_mem_lines listed, rfl⟩

/-- There is a line for each line of the trimmed `author` and for each line of `description`. -/
theorem length_innerLines (author description : Text) :
    (innerLines author description).length =
      (Text.lines author.trim).length + (Text.lines description).length := by
  have authors : (authorLines author).length = (Text.lines author.trim).length := by
    unfold authorLines
    split
    · next none => rw [none]
    · next first rest cut => rw [cut, List.length_cons, List.length_cons, List.length_map]
  rw [innerLines, List.length_append, authors, descriptionLines, List.length_map]

/-- Every `line` inside the comment begins with a star behind a space. -/
theorem star_isPrefix_of_mem_innerLines (member : line ∈ innerLines author description) :
    (" *" : Text) <+: line := by
  rcases of_mem_innerLines member with ⟨lead, listed, free, -, rfl⟩ | rfl
  · have begins : ∀ lead ∈ leads, (" *" : Text) <+: lead := by decide
    exact (begins lead listed).trans (List.prefix_append _ _)
  · exact List.prefix_rfl

theorem newline_notMem_of_mem_innerLines (member : line ∈ innerLines author description) :
    '\n' ∉ line := by
  rcases of_mem_innerLines member with ⟨lead, listed, free, whole, rfl⟩ | rfl
  · have single : ∀ lead ∈ leads, '\n' ∉ lead := by decide
    rw [List.mem_append, not_or]
    exact ⟨single lead listed, newline_notMem_content whole⟩
  · decide

/-- No `line` inside the comment ends it. -/
theorem isOpen_of_mem_innerLines (member : line ∈ innerLines author description) : IsOpen line := by
  rcases of_mem_innerLines member with ⟨lead, listed, free, -, rfl⟩ | rfl
  · have isOpen : ∀ lead ∈ leads, IsOpen lead := by decide
    -- a mark across the seam would begin with the space at the end of the lead
    have spaced : ∀ lead ∈ leads, lead.getLast? = some ' ' := by decide
    refine List.isChain_append.2 ⟨isOpen lead listed, isOpen_escape _, ?_⟩
    rintro c last d -
    rw [spaced lead listed] at last
    cases last
    rintro ⟨star, -⟩
    exact absurd star (by decide)
  · decide

theorem newline_notMem_of_mem_lines (member : line ∈ lines author description) : '\n' ∉ line := by
  rw [lines_eq, List.mem_cons, List.mem_append, List.mem_singleton] at member
  rcases member with rfl | member | rfl
  · decide
  · exact newline_notMem_of_mem_innerLines member
  · decide

/-- No `line` of the comment but the last ends it. -/
theorem occurrences_of_mem_opening_innerLines (member : line ∈ opening :: innerLines author description) :
    Text.occurrences closingMark line = 0 := by
  rcases List.mem_cons.1 member with rfl | member
  · decide
  · exact occurrences_closingMark (isOpen_of_mem_innerLines member)

/-- The comment has one `closingMark`, whatever `author` and `description` have in them. -/
theorem occurrences_unlines_lines (author description : Text) :
    Text.occurrences closingMark (Text.unlines (lines author description)) = 1 := by
  rw [lines_eq, ← List.cons_append]
  exact Text.occurrences_unlines_concat (by decide) (by decide)
    (fun line => occurrences_of_mem_opening_innerLines) closing

/-! ## The comment -/

/-- Between two lines at the outermost level of `page`, which is where the header of a class has its comment,
the text that is written for it begins and ends with its fixed lines whatever `author` and `description` say.
All lines between begin with a star, there is one for each line of the two texts, and the closing mark stands
nowhere but in the last line. -/
theorem closes_with_last_line {page : Page} (start : page.atLineStart = true)
    (outermost : page.level = 0) (author description : Text) :
    ∃ (comment : Text) (between : List Text),
      (page.run ((lines author description).flatMap Page.line)).text = page.text ++ comment ∧
      comment.splitOn '\n' = ("/**" : Text) :: (between ++ [(" */" : Text), []]) ∧
      (∀ line ∈ between, (" *" : Text) <+: line) ∧
      between.length = (Text.lines author.trim).length + (Text.lines description).length ∧
      Text.occurrences closingMark comment = 1 ∧
      ∀ line ∈ ("/**" : Text) :: between, Text.occurrences closingMark line = 0 := by
  refine ⟨Text.unlines (lines author description), innerLines author description, ?_, ?_,
    fun line => star_isPrefix_of_mem_innerLines, length_innerLines author description,
    occurrences_unlines_lines author description, fun line => occurrences_of_mem_opening_innerLines⟩
  · exact (Page.writes_outermost page.width _ page rfl outermost start).text
  · rw [Text.splitOn_unlines fun line => newline_notMem_of_mem_lines, lines_eq, List.cons_append,
      List.append_assoc]
    rfl

/-- Marks at the ends of lines, one over the seam of two marks, and a star and a slash on both sides of a line
break do not end the comment. -/
theorem closes_with_last_line_despite_marks :
    let page := Page.run { width := 2 } (Page.line "<?php")
    let author : Text := "Jo **//\n*/\r\n/ Lee "
    let description : Text := " /\r*\n/*/"
    page.atLineStart = true ∧ page.level = 0 ∧
      ∃ (comment : Text) (between : List Text),
        (page.run ((lines author description).flatMap Page.line)).text = page.text ++ comment ∧
        comment.splitOn '\n' = ("/**" : Text) :: (between ++ [(" */" : Text), []]) ∧
        between.length = 5 ∧ Text.occurrences closingMark comment = 1 := by
  intro page author description
  obtain ⟨comment, between, written, cut, -, count, once, -⟩ :=
    @closes_with_last_line page rfl rfl author description
  exact ⟨rfl, rfl, comment, between, written, cut, count, once⟩

end Docblock

end LabelledEnum
