import LabelledEnum.Proofs.Constant
import LabelledEnum.Proofs.ValueList.Pieces

/-!
# Value lists made of others

How the identifiers of a value list change when the list is written anew from its own identifiers, goes on after
a comma, or has its pieces in another order.

* `ValueList.identifiers_join_identifiers`: written anew, a value list names the same, and it does not matter
  when it is sorted.
* `ValueList.identifiers_append`: a value list that goes on keeps its constants and gets those with new names.
* `ValueList.identifiers_of_perm`: the order of the pieces does not matter for the names, and with sorting not
  for the identifiers, unless a name is spelt in different ways.
-/

namespace LabelledEnum.ValueList

/-- With sorting, only the set of the identifiers matters, not whether `raw` or `other` names them. -/
theorem identifiers_true_of_perm {raw other : Text}
    (same : (identifiers raw false).Perm (identifiers other false)) :
    identifiers raw true = identifiers other true := by
  refine identifiers_true_eq ?_ (ascending_identifiers_true other)
  exact (identifiers_perm other true).trans same.symm

/-! ## Written anew -/

/-- The identifiers of the value list `raw`, joined by commas, are a value list that names them in their
order. -/
theorem identifiers_false_join_identifiers (raw : Text) (sort : Bool) :
    identifiers (join (identifiers raw sort)) false = identifiers raw sort := by
  rw [identifiers_false, tokens_join_identifiers]
  exact firsts_eq_self constantName (nodup_map_constantName raw sort)

/-- A value list that is written anew from its identifiers names the same ones. They are sorted if they have
been sorted by `first` or are sorted by `second`. -/
theorem identifiers_join_identifiers (raw : Text) (first second : Bool) :
    identifiers (join (identifiers raw first)) second = identifiers raw (first || second) := by
  have anew := identifiers_false_join_identifiers raw first
  cases second with
  | false => rw [anew, Bool.or_false]
  | true =>
    rw [Bool.or_true]
    refine identifiers_true_of_perm ?_
    rw [anew]
    exact identifiers_perm raw first

/-! ## Going on -/

/-- The value list `first` that goes on after a comma names what it named before and then, of what comes after
the comma, the identifiers whose constant names are new. So every constant keeps its place, and with it its
name, its value and its label. -/
theorem identifiers_append (first second : Text) :
    identifiers (first ++ ',' :: second) false =
        identifiers first false ++ (identifiers second false).filter (fun identifier =>
          constantName identifier ∉ (identifiers first false).map constantName) ∧
      ∀ start, rows start (constants first false) <+:
        rows start (constants (first ++ ',' :: second) false) := by
  have goesOn : identifiers (first ++ ',' :: second) false =
      identifiers first false ++ (identifiers second false).filter (fun identifier =>
        constantName identifier ∉ (identifiers first false).map constantName) := by
    have cut : tokens (first ++ ',' :: second) = tokens first ++ tokens second :=
      tokens_append first second
    rw [identifiers_false, cut, firsts_append, identifiers_false, identifiers_false]
    exact congrArg _ (List.filter_congr fun _ _ => decide_eq_decide.2 Iff.rfl)
  refine ⟨goesOn, fun start => ?_⟩
  have numbered : constants first false <+: constants (first ++ ',' :: second) false := by
    rw [constants, constants, goesOn]
    exact enumerate_append_prefix _ _
  exact numbered.map _

/-! ## Another order -/

section

variable {pieces others : List Text}

theorem tokensOf_perm (same : pieces.Perm others) : (tokensOf pieces).Perm (tokensOf others) :=
  ((same.map Text.trim).filter _).map sanitize

/-- The constant names of the value list `raw` are those of what its pieces stand for. -/
theorem mem_map_constantName_identifiers {raw name : Text} {sort : Bool} :
    name ∈ (identifiers raw sort).map constantName ↔ name ∈ (tokens raw).map constantName := by
  rw [((identifiers_perm raw sort).map constantName).mem_iff, identifiers_false]
  exact mem_map_firsts constantName

/-- The order of its pieces does not matter for the names that the value list `raw` gives to constants. -/
theorem map_constantName_perm {raw other : Text} (same : (tokens raw).Perm (tokens other))
    (sort : Bool) :
    ((identifiers raw sort).map constantName).Perm ((identifiers other sort).map constantName) := by
  refine (List.perm_ext_iff_of_nodup (nodup_map_constantName raw sort)
    (nodup_map_constantName other sort)).2 fun name => ?_
  rw [mem_map_constantName_identifiers, mem_map_constantName_identifiers]
  exact (same.map constantName).mem_iff

/-- The order of its pieces does not matter for the set of identifiers either, if `raw` spells each name in one
way. -/
theorem identifiers_false_perm {raw other : Text} (same : (tokens raw).Perm (tokens other))
    (spelt : ∀ token ∈ tokens raw, ∀ again ∈ tokens raw,
      constantName token = constantName again → token = again) :
    (identifiers raw false).Perm (identifiers other false) := by
  have spelt' : ∀ token ∈ tokens other, ∀ again ∈ tokens other,
      constantName token = constantName again → token = again :=
    fun token listed again listed' =>
      spelt token (same.mem_iff.2 listed) again (same.mem_iff.2 listed')
  refine (List.perm_ext_iff_of_nodup ((nodup_map_constantName raw false).of_map _)
    ((nodup_map_constantName other false).of_map _)).2 fun identifier => ?_
  -- no spelling is lost, so both lists have all of them
  rw [identifiers_false, identifiers_false, mem_firsts_iff constantName spelt,
    mem_firsts_iff constantName spelt']
  exact same.mem_iff

/-- The order of its `pieces` does not matter for the names of the constants of a value list. If besides all
pieces that stand for one name spell it in the same way, it does not matter for the sorted constants either, and
each of them has the same value. -/
theorem identifiers_of_perm (whole : ∀ piece ∈ pieces, ',' ∉ piece) (same : pieces.Perm others) :
    (∀ sort, ((identifiers (join pieces) sort).map constantName).Perm
      ((identifiers (join others) sort).map constantName)) ∧
    ((∀ piece ∈ pieces, ∀ again ∈ pieces, piece.any isWordChar = true →
        again.any isWordChar = true →
        constantName (sanitize piece.trim) = constantName (sanitize again.trim) →
        sanitize piece.trim = sanitize again.trim) →
      identifiers (join pieces) true = identifiers (join others) true ∧
      ∀ start, rows start (constants (join pieces) true) =
        rows start (constants (join others) true)) := by
  have whole' : ∀ piece ∈ others, ',' ∉ piece := fun piece member =>
    whole piece (same.mem_iff.2 member)
  have read : tokens (join pieces) = tokensOf pieces := tokens_join whole
  have tokensSame : (tokens (join pieces)).Perm (tokens (join others)) := by
    rw [read, tokens_join whole']
    exact tokensOf_perm same
  refine ⟨map_constantName_perm tokensSame, fun spelt => ?_⟩
  have sorted : identifiers (join pieces) true = identifiers (join others) true := by
    refine identifiers_true_of_perm (identifiers_false_perm tokensSame ?_)
    rw [read]
    intro token listed again listed' name
    obtain ⟨piece, member, word, rfl⟩ := mem_tokensOf.1 listed
    obtain ⟨piece', member', word', rfl⟩ := mem_tokensOf.1 listed'
    -- a word character of the trimmed piece is one of the piece
    have inside : ∀ {text : Text}, text.trim.any isWordChar = true →
        text.any isWordChar = true := by
      intro text found
      obtain ⟨c, spelt, word⟩ := List.any_eq_true.1 found
      exact List.any_eq_true.2 ⟨c, text.trim_isInfix.subset spelt, word⟩
    exact spelt piece member piece' member' (inside word) (inside word') name
  refine ⟨sorted, fun start => ?_⟩
  rw [constants, constants, sorted]

/-- Two spellings of a piece that stand for the same identifier may change places. -/
theorem identifiers_of_perm_same_spelling :
    let pieces : List Text := [" free trial", "Paid", "!!", "free-trial\u00a0", "_"]
    let others : List Text := ["_", "free-trial\u00a0", "!!", "Paid", " free trial"]
    (∀ piece ∈ pieces, ',' ∉ piece) ∧ pieces.Perm others ∧
      (∀ piece ∈ pieces, ∀ again ∈ pieces, piece.any isWordChar = true →
        again.any isWordChar = true →
        constantName (sanitize piece.trim) = constantName (sanitize again.trim) →
        sanitize piece.trim = sanitize again.trim) ∧
      ((identifiers (join pieces) false).map constantName).Perm
        ((identifiers (join others) false).map constantName) ∧
      rows 7 (constants (join pieces) true) = rows 7 (constants (join others) true) ∧
      rows 7 (constants (join others) true) =
        [⟨"PAID", 7, "Paid"⟩, ⟨"_", 8, " "⟩, ⟨"FREE_TRIAL", 9, "Free Trial"⟩] := by
  intro pieces others
  have whole : ∀ piece ∈ pieces, ',' ∉ piece := by decide
  have same : pieces.Perm others := by decide
  have spelt : ∀ piece ∈ pieces, ∀ again ∈ pieces, piece.any isWordChar = true →
      again.any isWordChar = true →
      constantName (sanitize piece.trim) = constantName (sanitize again.trim) →
      sanitize piece.trim = sanitize again.trim := by
    decide
  obtain ⟨names, sorted⟩ := identifiers_of_perm whole same
  have shown : identifiers (join others) true = ["Paid", "_", "free_trial"] :=
    identifiers_true_eq (by decide) (by decide)
  refine ⟨whole, same, spelt, names false, (sorted spelt).2 7, ?_⟩
  rw [constants, shown]
  decide

-- of two spellings of one name, the first one stays
example : identifiers (join ["free", "Free"]) false = ["free".toList] ∧
    identifiers (join ["Free", "free"]) false = ["Free".toList] := by
  decide

end

end LabelledEnum.ValueList
