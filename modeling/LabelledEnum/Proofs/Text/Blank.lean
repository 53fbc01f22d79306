import LabelledEnum.Text.Blank
import Mathlib.Data.List.DropRight

/-!
# Trimming

Trimming removes blanks from the ends of a text and nothing else. A text that is cut at characters that are
not blank can therefore be trimmed as a whole before its pieces are, or not.

* `Text.exists_blanks_append_trim`: a text is its trimmed part between blanks.
* `Text.trim_blanks_append`, `Text.trim_append_blanks`: blanks at the ends do not change the trimmed part.
* `Text.trimEnd_eq_self_iff`, `Text.trimEnd_eq_nil_iff`: nothing is cut off at the right end, or everything is.
* `Text.isBlank_of_mem_head?_trim`: the trimmed part does not begin with a blank.
* `Text.trim_trim`, `Text.trim_eq_self`: a trimmed text, and a text without blanks, is its own trimmed part.
* `Text.map_trim_splitOnP_trim`: the trimmed pieces of the trimmed text are those of the text.
-/

namespace LabelledEnum.Text

variable {text blanks : Text}

/-! ## Blanks at the ends -/

/-- At the left end of `text`, blanks before it are cut off with those it has. -/
theorem trimStart_blanks_append (blank : ∀ c ∈ blanks, isBlank c = true) (text : Text) :
    trimStart (blanks ++ text) = trimStart text :=
  List.dropWhile_append_of_pos blank

/-- At the right end of `text`, blanks after it are cut off with those it has. -/
theorem trimEnd_append_blanks (blank : ∀ c ∈ blanks, isBlank c = true) (text : Text) :
    trimEnd (text ++ blanks) = trimEnd text := by
  have back : ∀ c ∈ blanks.reverse, isBlank c = true :=
    fun c member => blank c (List.mem_reverse.1 member)
  rw [trimEnd, List.reverse_append, List.dropWhile_append_of_pos back, trimEnd]

/-- What `trimStart` cuts off `text` are blanks. -/
theorem exists_blanks_append_trimStart (text : Text) :
    ∃ blanks, (∀ c ∈ blanks, isBlank c = true) ∧ text = blanks ++ trimStart text :=
  ⟨text.takeWhile isBlank, List.all_eq_true.1 List.all_takeWhile,
    List.takeWhile_append_dropWhile.symm⟩

/-- What `trimEnd` cuts off `text` are blanks. -/
theorem exists_trimEnd_append_blanks (text : Text) :
    ∃ blanks, (∀ c ∈ blanks, isBlank c = true) ∧ text = trimEnd text ++ blanks := by
  -- the blanks at the right end are those at the left end of the reversed text
  obtain ⟨blanks, blank, spelt⟩ := exists_blanks_append_trimStart text.reverse
  refine ⟨blanks.reverse, fun c member => blank c (List.mem_reverse.1 member), ?_⟩
  rw [trimEnd, ← List.reverse_append]
  exact List.reverse_eq_iff.1 spelt

theorem trimStart_eq_nil (blank : ∀ c ∈ blanks, isBlank c = true) : trimStart blanks = [] := by
  have none := trimStart_blanks_append blank []
  rwa [List.append_nil] at none

/-- Everything is cut off by `trimEnd` exactly if there is nothing but blanks. -/
theorem trimEnd_eq_nil_iff : trimEnd text = [] ↔ ∀ c ∈ text, isBlank c = true :=
  List.rdropWhile_eq_nil_iff

/-- Nothing is cut off by `trimEnd` exactly if the last character is not blank. -/
theorem trimEnd_eq_self_iff : trimEnd text = text ↔ ∀ c ∈ text.getLast?, isBlank c = false := by
  rw [show trimEnd text = text.rdropWhile isBlank from rfl, List.rdropWhile_eq_self_iff]
  cases text using List.reverseRecOn with
  | nil => simp
  | append_singleton front last => simp

@[simp]
theorem trimEnd_trimEnd (text : Text) : trimEnd (trimEnd text) = trimEnd text :=
  List.rdropWhile_idempotent isBlank text

/-- What is cut off at the right end of `front ++ back` is cut off at that of `back`, if it has an end. -/
theorem trimEnd_append_eq_self_iff {back : Text} (filled : back ≠ []) (front : Text) :
    trimEnd (front ++ back) = front ++ back ↔ trimEnd back = back := by
  rw [trimEnd_eq_self_iff, trimEnd_eq_self_iff, List.getLast?_append_of_ne_nil _ filled]

/-- The trimmed part of `text` does not begin with a blank. -/
theorem isBlank_of_mem_head?_trim {c : Char} (first : c ∈ (trim text).head?) : isBlank c = false := by
  obtain ⟨rest, trimmed⟩ := List.head?_eq_some_iff.1 first
  obtain ⟨back, begins⟩ : trim text <+: trimStart text := List.rdropWhile_prefix isBlank _
  rw [trimmed, List.cons_append] at begins
  have unblank := List.head?_dropWhile_not isBlank text
  rwa [← show c :: (rest ++ back) = text.dropWhile isBlank from begins] at unblank

/-- In front of `text`, blanks do not change its trimmed part. -/
theorem trim_blanks_append (blank : ∀ c ∈ blanks, isBlank c = true) (text : Text) :
    trim (blanks ++ text) = trim text := by
  rw [trim, trimStart_blanks_append blank, trim]

/-- After `text`, blanks do not change its trimmed part. -/
theorem trim_append_blanks (blank : ∀ c ∈ blanks, isBlank c = true) (text : Text) :
    trim (text ++ blanks) = trim text := by
  unfold trim
  have start : trimStart (text ++ blanks) =
      if (trimStart text).isEmpty then trimStart blanks else trimStart text ++ blanks :=
    List.dropWhile_append
  rw [start]
  split
  · next empty => rw [trimStart_eq_nil blank, List.isEmpty_iff.1 empty]
  · rw [trimEnd_append_blanks blank]

theorem trim_trimEnd (text : Text) : trim (trimEnd text) = trim text := by
  obtain ⟨blanks, blank, spelt⟩ := exists_trimEnd_append_blanks text
  have same := trim_append_blanks blank (trimEnd text)
  rw [← spelt] at same
  exact same.symm

private theorem trimEnd_cons_trimEnd (c : Char) (text : Text) :
    trimEnd (c :: trimEnd text) = trimEnd (c :: text) := by
  obtain ⟨blanks, blank, spelt⟩ := exists_trimEnd_append_blanks text
  have same := trimEnd_append_blanks blank (c :: trimEnd text)
  rw [List.cons_append, ← spelt] at same
  exact same.symm

/-- A text is its trimmed part with blanks before and after it, as `trim` says. -/
theorem exists_blanks_append_trim (text : Text) :
    ∃ before after, (∀ c ∈ before, isBlank c = true) ∧ (∀ c ∈ after, isBlank c = true) ∧
      text = before ++ (trim text ++ after) := by
  obtain ⟨before, blankBefore, start⟩ := exists_blanks_append_trimStart text
  obtain ⟨after, blankAfter, rest⟩ := exists_trimEnd_append_blanks (trimStart text)
  exact ⟨before, after, blankBefore, blankAfter, by rw [trim, ← rest, ← start]⟩

/-- A trimmed text is its own trimmed part, so `trim` need not be repeated. -/
@[simp]
theorem trim_trim (text : Text) : trim (trim text) = trim text := by
  obtain ⟨before, after, blankBefore, blankAfter, spelt⟩ := exists_blanks_append_trim text
  have same := trim_blanks_append blankBefore (trim text ++ after)
  rw [← spelt, trim_append_blanks blankAfter] at same
  exact same.symm

/-- A `text` without blanks is its own trimmed part. -/
theorem trim_eq_self (plain : ∀ c ∈ text, isBlank c = false) : trim text = text := by
  obtain ⟨before, after, blankBefore, blankAfter, spelt⟩ := exists_blanks_append_trim text
  -- what is cut off would be a blank of the text
  have cut : ∀ {blanks : Text}, (∀ c ∈ blanks, isBlank c = true) → blanks ⊆ text → blanks = [] := by
    intro blanks blank part
    refine List.eq_nil_iff_forall_not_mem.2 fun c member => ?_
    exact Bool.false_ne_true ((plain c (part member)).symm.trans (blank c member))
  have none : before = [] := cut blankBefore fun c member => by
    rw [spelt]
    exact List.mem_append_left _ member
  have none' : after = [] := cut blankAfter fun c member => by
    rw [spelt]
    exact List.mem_append_right _ (List.mem_append_right _ member)
  rw [none, none', List.nil_append, List.append_nil] at spelt
  exact spelt.symm

/-! ## Pieces -/

section

variable {isSeparator : Char → Bool} (apart : ∀ c, isBlank c = true → isSeparator c = false)
include apart

/-- Blanks before `text` belong to its first piece, where they are cut off. -/
private theorem map_trim_splitOnP_blanks_append (blank : ∀ c ∈ blanks, isBlank c = true)
    (text : Text) :
    ((blanks ++ text).splitOnP isSeparator).map trim = (text.splitOnP isSeparator).map trim := by
  induction blanks with
  | nil => rfl
  | cons c rest ih =>
    rw [List.forall_mem_cons] at blank
    obtain ⟨first, others, pieces⟩ :=
      List.exists_cons_of_ne_nil (List.splitOnP_ne_nil isSeparator (rest ++ text))
    have single : ∀ d ∈ [c], isBlank d = true := by simpa using blank.1
    have trimmed : trim (c :: first) = trim first := trim_blanks_append single first
    -- the blank goes to the front of the first piece
    rw [List.cons_append, List.splitOnP_cons_eq_if_modifyHead, apart c blank.1,
      if_neg Bool.false_ne_true, ← ih blank.2, pieces, List.modifyHead_cons, List.map_cons,
      List.map_cons, trimmed]

/-- Blanks after `text` belong to its last piece, where they are cut off. -/
private theorem map_trimEnd_splitOnP_append_blanks (blank : ∀ c ∈ blanks, isBlank c = true)
    (text : Text) :
    ((text ++ blanks).splitOnP isSeparator).map trimEnd =
      (text.splitOnP isSeparator).map trimEnd := by
  induction text with
  | nil =>
    have single : blanks.splitOnP isSeparator = [blanks] :=
      List.splitOnP_eq_singleton fun c member => apart c (blank c member)
    rw [List.nil_append, single, List.splitOnP_nil, List.map_singleton, List.map_singleton,
      trimEnd_eq_nil_iff.2 blank]
    rfl
  | cons c rest ih =>
    rw [List.cons_append, List.splitOnP_cons_eq_if_modifyHead, List.splitOnP_cons_eq_if_modifyHead]
    split
    · rw [List.map_cons, List.map_cons, ih]
    · obtain ⟨first, others, pieces⟩ :=
        List.exists_cons_of_ne_nil (List.splitOnP_ne_nil isSeparator (rest ++ blanks))
      obtain ⟨first', others', pieces'⟩ :=
        List.exists_cons_of_ne_nil (List.splitOnP_ne_nil isSeparator rest)
      rw [pieces, pieces', List.map_cons, List.map_cons, List.cons.injEq] at ih
      rw [pieces, pieces', List.modifyHead_cons, List.modifyHead_cons, List.map_cons, List.map_cons,
        ← trimEnd_cons_trimEnd, ih.1, trimEnd_cons_trimEnd, ih.2]

/-- Where blanks do not separate pieces, the trimmed pieces of the trimmed `text` are those of the text. -/
theorem map_trim_splitOnP_trim (text : Text) :
    ((trim text).splitOnP isSeparator).map trim = (text.splitOnP isSeparator).map trim := by
  obtain ⟨before, after, blankBefore, blankAfter, spelt⟩ := exists_blanks_append_trim text
  have ends : ∀ pieces : List Text, pieces.map trim = (pieces.map trimEnd).map trim := by
    intro pieces
    rw [List.map_map]
    exact List.map_congr_left fun piece _ => (trim_trimEnd piece).symm
  calc ((trim text).splitOnP isSeparator).map trim
      = ((trim text ++ after).splitOnP isSeparator).map trim := by
        rw [ends, ends (List.splitOnP _ (trim text ++ after)),
          map_trimEnd_splitOnP_append_blanks apart blankAfter]
    _ = ((before ++ (trim text ++ after)).splitOnP isSeparator).map trim :=
        (map_trim_splitOnP_blanks_append apart blankBefore _).symm
    _ = (text.splitOnP isSeparator).map trim := by rw [← spelt]

end

end LabelledEnum.Text
