import LabelledEnum.Text.Basic
import Mathlib.Data.List.Basic

/-!
# Pieces between separators

* `Text.of_mem_splitOnP`: a piece holds only characters of the text, and none at which it was split.
* `Text.notMem_of_mem_splitOn`, `Text.mem_of_mem_splitOn`: the same for a single separator.
* `Text.flatten_splitOnP`: the pieces together are the text without the separators.
* `Text.splitOnP_intercalate`: pieces that have been joined are split again.
* `Text.span_append`, `Text.span_append_cons`: where a run of characters of one kind ends, and where a character
  comes first.
* `Text.dropPrefix?_eq_some_iff`: what comes after an opening.
-/

namespace LabelledEnum.Text

/-- A `piece` holds only characters of the text, and none at which the text was split. -/
theorem of_mem_splitOnP {isSeparator : Char → Bool} {text piece : Text}
    (h : piece ∈ text.splitOnP isSeparator) : ∀ c ∈ piece, c ∈ text ∧ isSeparator c = false := by
  induction text generalizing piece with
  | nil =>
    rw [List.splitOnP_nil, List.mem_singleton] at h
    subst h
    simp
  | cons c rest ih =>
    -- what is found in the rest is found in the text
    have later : ∀ {piece : Text}, piece ∈ rest.splitOnP isSeparator →
        ∀ d ∈ piece, d ∈ c :: rest ∧ isSeparator d = false :=
      fun member d inside => (ih member d inside).imp_left (List.mem_cons_of_mem c)
    rw [List.splitOnP_cons_eq_if_modifyHead] at h
    split at h
    · rcases List.mem_cons.1 h with rfl | member
      · simp
      · exact later member
    · next inside =>
      -- the character goes on with the first piece of the rest
      obtain ⟨first, others, pieces⟩ :=
        List.exists_cons_of_ne_nil (List.splitOnP_ne_nil isSeparator rest)
      rw [pieces, List.modifyHead_cons] at h
      rcases List.mem_cons.1 h with rfl | member
      · intro d member
        rcases List.mem_cons.1 member with rfl | member
        · exact ⟨List.mem_cons_self, by simpa using inside⟩
        · exact later (by rw [pieces]; exact List.mem_cons_self) d member
      · exact later (by rw [pieces]; exact List.mem_cons_of_mem _ member)

theorem notMem_of_mem_splitOn {separator : Char} {text piece : Text}
    (h : piece ∈ text.splitOn separator) : separator ∉ piece := by
  rw [List.splitOn_eq_splitOnP] at h
  intro member
  simpa using (of_mem_splitOnP h separator member).2

theorem mem_of_mem_splitOn {separator : Char} {text piece : Text} {c : Char}
    (h : piece ∈ text.splitOn separator) (member : c ∈ piece) : c ∈ text := by
  rw [List.splitOn_eq_splitOnP] at h
  exact (of_mem_splitOnP h c member).1

/-- Put together, the pieces are `text` without the separators. -/
theorem flatten_splitOnP (isSeparator : Char → Bool) (text : Text) :
    (text.splitOnP isSeparator).flatten = text.filter (!isSeparator ·) := by
  induction text with
  | nil => rfl
  | cons c rest ih =>
    obtain ⟨first, others, pieces⟩ :=
      List.exists_cons_of_ne_nil (List.splitOnP_ne_nil isSeparator rest)
    rw [List.splitOnP_cons_eq_if_modifyHead, List.filter_cons, ← ih, pieces]
    cases isSeparator c <;> rfl

/-- The `pieces` without a separator in them, joined by a separator, are split into themselves. -/
theorem splitOnP_intercalate {isSeparator : Char → Bool} {separator : Char}
    (separates : isSeparator separator = true) {pieces : List Text}
    (whole : ∀ piece ∈ pieces, ∀ c ∈ piece, isSeparator c = false) (filled : pieces ≠ []) :
    (List.intercalate [separator] pieces).splitOnP isSeparator = pieces := by
  induction pieces with
  | nil => exact absurd rfl filled
  | cons first others ih =>
    rw [List.forall_mem_cons] at whole
    cases others with
    | nil => rw [List.intercalate_singleton, List.splitOnP_eq_singleton whole.1]
    | cons second rest =>
      rw [List.intercalate_cons_cons, List.append_assoc, List.singleton_append,
        List.splitOnP_append_cons _ _ separates, List.splitOnP_eq_singleton whole.1,
        ih whole.2 (List.cons_ne_nil second rest), List.singleton_append]

/-- A `run` of characters of one kind ends before the first character of another kind. -/
theorem span_append {inRun : Char → Bool} {run rest : Text} (within : ∀ c ∈ run, inRun c = true)
    (ended : ∀ c ∈ rest.head?, inRun c = false) :
    (run ++ rest).takeWhile inRun = run ∧ (run ++ rest).dropWhile inRun = rest := by
  rw [List.takeWhile_append_of_pos within, List.dropWhile_append_of_pos within]
  cases rest with
  | nil => exact ⟨List.append_nil run, rfl⟩
  | cons c others =>
    have stop : ¬inRun c = true := Bool.eq_false_iff.1 (ended c rfl)
    rw [List.takeWhile_cons_of_neg stop, List.dropWhile_cons_of_neg stop]
    exact ⟨List.append_nil run, rfl⟩

/-- What comes before `c` for the first time has it nowhere. -/
theorem span_append_cons {c : Char} {front : Text} (absent : c ∉ front) (back : Text) :
    (front ++ c :: back).takeWhile (· ≠ c) = front ∧
      (front ++ c :: back).dropWhile (· ≠ c) = c :: back := by
  refine span_append (fun d member => ?_) (by simp)
  rw [decide_eq_true_eq]
  rintro rfl
  exact absent member

/-- A text without `opening` gives the rest exactly when it is put together from the two. -/
theorem dropPrefix?_eq_some_iff {text opening rest : Text} :
    text.dropPrefix? opening = some rest ↔ text = opening ++ rest := by
  simp [List.dropPrefix?_eq_some_iff]

/-- A text without `closing` gives the rest exactly when it is put together from the two. -/
theorem dropSuffix?_eq_some_iff {text closing rest : Text} :
    text.dropSuffix? closing = some rest ↔ text = rest ++ closing := by
  simp [List.dropSuffix?_eq_some_iff]

end LabelledEnum.Text
