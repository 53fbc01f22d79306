import LabelledEnum.Proofs.Text.Blank
import LabelledEnum.Proofs.ValueList

/-!
# Value lists put together from pieces

What a value list names depends only on its pieces. Pieces can be joined by commas, one list can go on after
another, and blanks around the whole list do not count.

* `ValueList.tokensOf`: the identifiers that some pieces stand for, with repetitions.
* `ValueList.join`, `ValueList.tokens_join`: the value list with the given pieces.
* `ValueList.tokens_append`: a value list that goes on after a comma.
* `ValueList.tokens_trim`, `ValueList.constants_trim`: a value list without the blanks around it.
* `ValueList.tokens_join_identifiers`: the list of its own identifiers.
-/

namespace LabelledEnum.ValueList

/-- The identifiers of those of `pieces` that hold at least one word character, in order. -/
def tokensOf (pieces : List Text) : List Text :=
  ((pieces.map Text.trim).filter (·.any isWordChar)).map sanitize

theorem tokens_eq (raw : Text) : tokens raw = tokensOf (raw.splitOn separator) := rfl

theorem tokensOf_append (pieces more : List Text) :
    tokensOf (pieces ++ more) = tokensOf pieces ++ tokensOf more := by
  simp only [tokensOf, List.map_append, List.filter_append]

/-- Each token is what one of `pieces` stands for. A piece without a word character stands for nothing. -/
theorem mem_tokensOf {pieces : List Text} {token : Text} :
    token ∈ tokensOf pieces ↔
      ∃ piece ∈ pieces, piece.trim.any isWordChar = true ∧ sanitize piece.trim = token := by
  simp only [tokensOf, List.mem_map, List.mem_filter, exists_exists_and_eq_and, and_assoc]

/-! ## Joined pieces -/

/-- The value list with the given `pieces`, between which stand commas. -/
def join (pieces : List Text) : Text := List.intercalate [separator] pieces

/-- A value list that joins `pieces` names what they stand for. -/
theorem tokens_join {pieces : List Text} (whole : ∀ piece ∈ pieces, separator ∉ piece) :
    tokens (join pieces) = tokensOf pieces := by
  rw [tokens_eq]
  cases pieces with
  | nil =>
    -- the empty list has one piece, which is empty and stands for nothing
    rfl
  | cons first others =>
    rw [join, List.splitOn_intercalate separator whole (List.cons_ne_nil first others)]

/-- The value list `first` that goes on after a comma names what both its parts name. -/
theorem tokens_append (first second : Text) :
    tokens (first ++ separator :: second) = tokens first ++ tokens second := by
  rw [tokens_eq, List.splitOn_append_cons_self, tokensOf_append, tokens_eq, tokens_eq]

/-! ## Blanks around the list -/

/-- Blanks around the value list `raw` do not count. -/
theorem tokens_trim (raw : Text) : tokens raw.trim = tokens raw := by
  have apart : ∀ c, isBlank c = true → (c == separator) = false := by
    intro c blank
    refine beq_eq_false_iff_ne.2 ?_
    rintro rfl
    exact absurd blank (by decide)
  rw [tokens_eq, tokens_eq, tokensOf, tokensOf, List.splitOn_eq_splitOnP,
    List.splitOn_eq_splitOnP, Text.map_trim_splitOnP_trim apart]

/-- Blanks around the value list `raw` do not change its constants. -/
theorem constants_trim (raw : Text) (sort : Bool) :
    constants raw.trim sort = constants raw sort := by
  rw [constants, constants, identifiers, identifiers, tokens_trim]

/-- A value list `raw` of blanks alone names nothing. -/
theorem constants_of_trim_eq_nil {raw : Text} (blank : raw.trim = []) (sort : Bool) :
    constants raw sort = [] := by
  have none : tokens [] = [] := rfl
  rw [← constants_trim, blank, constants, identifiers, none]
  cases sort <;> simp [firstSpellings, enumerate]

/-! ## The identifiers as pieces -/

/-- The texts `identifiers` stand for themselves, if they have word characters only. -/
theorem tokensOf_eq_self {identifiers : List Text}
    (words : ∀ identifier ∈ identifiers,
      identifier ≠ [] ∧ ∀ c ∈ identifier, isWordChar c = true) :
    tokensOf identifiers = identifiers := by
  have trimmed : identifiers.map Text.trim = identifiers.map id := by
    refine List.map_congr_left fun identifier member => Text.trim_eq_self fun c spelt => ?_
    exact isBlank_of_isWordChar ((words identifier member).2 c spelt)
  have kept : identifiers.filter (·.any isWordChar) = identifiers := by
    refine List.filter_eq_self.2 fun identifier member => ?_
    obtain ⟨filled, word⟩ := words identifier member
    obtain ⟨c, rest, rfl⟩ := List.exists_cons_of_ne_nil filled
    exact List.any_eq_true.2 ⟨c, List.mem_cons_self, word c List.mem_cons_self⟩
  have spelt : identifiers.map sanitize = identifiers.map id :=
    List.map_congr_left fun identifier member => sanitize_eq_self_iff.2 (words identifier member).2
  rw [tokensOf, trimmed, List.map_id, kept, spelt, List.map_id]

/-- The list of the identifiers of `raw` names these identifiers. -/
theorem tokens_join_identifiers (raw : Text) (sort : Bool) :
    tokens (join (identifiers raw sort)) = identifiers raw sort := by
  have words : ∀ identifier ∈ identifiers raw sort,
      identifier ≠ [] ∧ ∀ c ∈ identifier, isWordChar c = true :=
    fun _ => wordChars_of_mem_identifiers
  rw [tokens_join, tokensOf_eq_self words]
  -- a comma is no word character
  exact fun identifier member comma => absurd ((words identifier member).2 _ comma) (by decide)

end LabelledEnum.ValueList
