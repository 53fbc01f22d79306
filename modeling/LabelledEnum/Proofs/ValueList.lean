import LabelledEnum.Proofs.Identifier
import LabelledEnum.Proofs.Text.Order
import LabelledEnum.ValueList
import Mathlib.Data.List.Induction
import Mathlib.Data.List.Nodup

/-!
# Distinct identifiers

* `ValueList.firsts`: the items that have a key that none before them has.
* `ValueList.firsts_append`: after other items, those stay whose key is new.
* `ValueList.mem_map_firsts`, `ValueList.mem_firsts_iff`, `ValueList.firsts_eq_self`: which keys and items are
  left, and when all are.
* `ValueList.firstSpellings_eq_firsts`: first spellings are the identifiers with a new constant name.
* `ValueList.distinct_identifiers`: what the identifiers of a value list are, in typed and in sorted order.
-/

namespace LabelledEnum.ValueList

/-! ## Items with a new key -/

section Firsts

variable {Item Key : Type} [DecidableEq Key] (key : Item → Key)

/-- The `items` that have a key that none of the items before them has, in order. -/
def firsts (items : List Item) : List Item :=
  (items.zipIdx.filter fun entry =>
    (items.take entry.2).all fun earlier => key earlier ≠ key entry.1).map Prod.fst

/-- An item `last` at the end is a first one unless an earlier item has its key. -/
theorem firsts_concat (items : List Item) (last : Item) :
    firsts key (items ++ [last]) =
      firsts key items ++ if items.all fun earlier => key earlier ≠ key last then [last] else [] := by
  -- the items before an old item are the same as without the last one
  have old : ∀ entry ∈ items.zipIdx, (items ++ [last]).take entry.2 = items.take entry.2 := by
    intro entry member
    have inside := List.snd_lt_of_mem_zipIdx member
    exact List.take_append_of_le_length (by omega)
  unfold firsts
  rw [List.zipIdx_append, List.filter_append, List.map_append]
  congr 1
  · congr 1
    refine List.filter_congr fun entry member => ?_
    rw [old entry member]
  · simp only [List.zipIdx_singleton, Nat.zero_add, List.filter_singleton, List.take_left]
    cases items.all fun earlier => key earlier ≠ key last <;> rfl

theorem mem_of_mem_firsts {items : List Item} {item : Item} (member : item ∈ firsts key items) :
    item ∈ items := by
  obtain ⟨entry, kept, rfl⟩ := List.mem_map.1 member
  exact List.fst_mem_of_mem_zipIdx (List.mem_of_mem_filter kept)

/-- Among the `firsts`, the item with the key `wanted` is the first one with it among all `items`. -/
theorem find?_firsts (items : List Item) (wanted : Key) :
    (firsts key items).find? (key · = wanted) = items.find? (key · = wanted) := by
  induction items using List.reverseRecOn with
  | nil => rfl
  | append_singleton items last ih =>
    rw [firsts_concat, List.find?_append, List.find?_append, ih]
    cases earlier : items.find? (key · = wanted) with
    | some item => rfl
    | none =>
      rw [List.find?_eq_none] at earlier
      -- no earlier item has the key, so only the last one can be the first with it
      by_cases here : key last = wanted
      · subst here
        rw [if_pos]
        simpa using earlier
      · split <;> simp [here]

/-- No two of the `firsts` have the same key. -/
theorem nodup_firsts (items : List Item) : ((firsts key items).map key).Nodup := by
  induction items using List.reverseRecOn with
  | nil => exact List.nodup_nil
  | append_singleton items last ih =>
    rw [firsts_concat, List.map_append, List.nodup_append]
    refine ⟨ih, ?_, ?_⟩
    · split <;> simp
    · -- the last item is added only if its key is new
      intro _ old _ new
      obtain ⟨item, member, rfl⟩ := List.mem_map.1 old
      split at new
      · next unused =>
        obtain rfl : _ = key last := by simpa using new
        exact by simpa using List.all_eq_true.1 unused item (mem_of_mem_firsts key member)
      · cases new

/-- The keys of the `firsts` are the keys of all `items`. -/
theorem mem_map_firsts {items : List Item} {wanted : Key} :
    wanted ∈ (firsts key items).map key ↔ wanted ∈ items.map key := by
  constructor
  · intro member
    obtain ⟨item, first, rfl⟩ := List.mem_map.1 member
    exact List.mem_map_of_mem (mem_of_mem_firsts key first)
  · intro member
    obtain ⟨item, listed, rfl⟩ := List.mem_map.1 member
    -- the first item with the key is found among the first items too
    have found : ((firsts key items).find? (key · = key item)).isSome := by
      rw [find?_firsts, List.find?_isSome]
      exact ⟨item, listed, by simp⟩
    obtain ⟨first, kept, same⟩ := List.find?_isSome.1 found
    exact List.mem_map.2 ⟨first, kept, by simpa using same⟩

/-- Where equal keys mean equal items, none of `items` is lost. -/
theorem mem_firsts_iff {items : List Item}
    (spelt : ∀ item ∈ items, ∀ other ∈ items, key item = key other → item = other) {item : Item} :
    item ∈ firsts key items ↔ item ∈ items := by
  refine ⟨mem_of_mem_firsts key, fun member => ?_⟩
  obtain ⟨first, kept, same⟩ :=
    List.mem_map.1 ((mem_map_firsts key).2 (List.mem_map_of_mem (f := key) member))
  rwa [← spelt first (mem_of_mem_firsts key kept) item member same]

/-- Of the items in `more`, the first ones stay that have a key which none of `items` has. -/
theorem firsts_append (items more : List Item) :
    firsts key (items ++ more) =
      firsts key items ++
        (firsts key more).filter fun item => key item ∉ (firsts key items).map key := by
  induction more using List.reverseRecOn with
  | nil => simp [firsts]
  | append_singleton more last ih =>
    have unused : (items.all fun earlier => decide (key earlier ≠ key last)) =
        decide (key last ∉ (firsts key items).map key) := by
      rw [Bool.eq_iff_iff, decide_eq_true_iff, mem_map_firsts]
      simp
    rw [← List.append_assoc, firsts_concat, ih, firsts_concat, List.filter_append, List.all_append,
      unused, List.append_assoc]
    congr 2
    -- the last item has to be new both among the items before and among the others
    cases more.all fun earlier => decide (key earlier ≠ key last) with
    | false => simp
    | true =>
      rw [Bool.and_true, if_pos rfl, List.filter_singleton]
      cases decide (key last ∉ (firsts key items).map key) <;> rfl

/-- Items with different keys are all among the `firsts`. -/
theorem firsts_eq_self {items : List Item} (different : (items.map key).Nodup) :
    firsts key items = items := by
  induction items using List.reverseRecOn with
  | nil => rfl
  | append_singleton items last ih =>
    rw [List.map_append, List.nodup_append] at different
    obtain ⟨before, -, apart⟩ := different
    rw [firsts_concat, ih before, if_pos]
    refine List.all_eq_true.2 fun earlier member => ?_
    simpa using apart _ (List.mem_map_of_mem member) _ (by simp)

end Firsts

/-! ## The identifiers of a value list -/

/-- An identifier `last` at the end is kept unless an earlier one has its constant name. -/
theorem firstSpellings_concat (spellings : List Text) (last : Text) :
    firstSpellings (spellings ++ [last]) =
      firstSpellings spellings ++
        if spellings.all fun earlier => constantName earlier ≠ constantName last then [last]
        else [] := by
  induction spellings with
  | nil => rfl
  | cons spelling rest ih =>
    rw [List.cons_append, firstSpellings, firstSpellings, ih, List.filter_append, List.cons_append,
      List.all_cons]
    congr 2
    -- the first spelling removes the last one exactly if they have the same name
    by_cases same : constantName spelling = constantName last
    · rw [same]
      split <;> simp
    · have other : constantName last ≠ constantName spelling := Ne.symm same
      simp only [ne_eq, same, not_false_eq_true, decide_true, Bool.true_and]
      split <;> simp [other]

/-- What `firstSpellings` leaves are the identifiers with a constant name that no earlier one has. -/
theorem firstSpellings_eq_firsts (spellings : List Text) :
    firstSpellings spellings = firsts constantName spellings := by
  induction spellings using List.reverseRecOn with
  | nil => rfl
  | append_singleton spellings last ih => rw [firstSpellings_concat, firsts_concat, ih]

/-- In typed order, the identifiers are the first ones of the `tokens` by their constant names. -/
theorem identifiers_false (raw : Text) : identifiers raw false = firsts constantName (tokens raw) :=
  firstSpellings_eq_firsts (tokens raw)

/-- Sorting only changes the order of the identifiers that `raw` names. -/
theorem identifiers_perm (raw : Text) (sort : Bool) :
    (identifiers raw sort).Perm (identifiers raw false) := by
  cases sort with
  | false => exact .refl _
  | true => exact List.mergeSort_perm _ _

/-- The identifiers that `raw` names have different constant names. -/
theorem nodup_map_constantName (raw : Text) (sort : Bool) :
    ((identifiers raw sort).map constantName).Nodup := by
  rw [((identifiers_perm raw sort).map constantName).nodup_iff, identifiers_false]
  exact nodup_firsts constantName (tokens raw)

/-- An `identifier` is not empty and has word characters only. -/
theorem wordChars_of_mem_identifiers {raw : Text} {sort : Bool} {identifier : Text}
    (member : identifier ∈ identifiers raw sort) :
    identifier ≠ [] ∧ ∀ c ∈ identifier, isWordChar c = true := by
  rw [(identifiers_perm raw sort).mem_iff, identifiers_false] at member
  obtain ⟨piece, kept, rfl⟩ := List.mem_map.1 (mem_of_mem_firsts constantName member)
  have filled : piece ≠ [] := by
    rintro rfl
    cases (List.mem_filter.1 kept).2
  exact ⟨mt sanitize_eq_nil_iff.1 filled, fun _ => isWordChar_of_mem_sanitize⟩

/-- What a constant is derived from is one of the `identifiers` of the same list. -/
theorem identifier_mem_of_mem_constants {raw : Text} {sort : Bool} {constant : Constant}
    (member : constant ∈ constants raw sort) : constant.identifier ∈ identifiers raw sort := by
  obtain ⟨position, inside, rfl⟩ := List.mem_mapIdx.1 member
  exact List.getElem_mem inside

/-- The identifier of a constant has word characters only. -/
theorem wordChars_of_mem_constants {raw : Text} {sort : Bool} {constant : Constant}
    (member : constant ∈ constants raw sort) :
    ∀ c ∈ constant.identifier, isWordChar c = true :=
  (wordChars_of_mem_identifiers (identifier_mem_of_mem_constants member)).2

theorem ascii_of_mem_identifiers {raw : Text} {sort : Bool} {identifier : Text}
    (member : identifier ∈ identifiers raw sort) : ∀ c ∈ identifier, c.toNat < 0x80 :=
  fun c spelt => toNat_lt_of_isWordChar ((wordChars_of_mem_identifiers member).2 c spelt)

/-- Of the sorted identifiers, none stands before an earlier one by `Text.isBefore`. -/
theorem ascending_identifiers_true (raw : Text) :
    (identifiers raw true).Pairwise fun first second => Text.isBefore second first = false := by
  have ascending : (identifiers raw true).Pairwise fun first second =>
      (!Text.isBefore second first) = true := by
    refine List.pairwise_mergeSort ?_ ?_ _
    · simpa using fun _ _ _ => Text.not_isBefore_trans
    · simpa using Text.not_isBefore_total
  exact ascending.imp fun h => by simpa using h

/-- The sorted identifiers are the only ascending list of the identifiers: any such list `ordered` is the
same. -/
theorem identifiers_true_eq {raw : Text} {ordered : List Text}
    (same : ordered.Perm (identifiers raw false))
    (ascending : ordered.Pairwise fun first second => Text.isBefore second first = false) :
    identifiers raw true = ordered :=
  ((identifiers_perm raw true).trans same.symm).eq_of_pairwise
    (fun _ _ _ _ once back => Text.eq_of_not_isBefore once back)
    (ascending_identifiers_true raw) ascending

/-- The sorted identifiers ascend strictly in the order of their bytes, which `Text.BytesBefore` compares. -/
theorem pairwise_identifiers_true (raw : Text) :
    (identifiers raw true).Pairwise Text.BytesBefore := by
  have ascending := ascending_identifiers_true raw
  -- equal identifiers would share a constant name, so the order is strict
  have distinct : (identifiers raw true).Nodup := (nodup_map_constantName raw true).of_map _
  refine (ascending.and distinct).imp_of_mem fun hfirst hsecond h => ?_
  rw [Text.bytesBefore_iff (ascii_of_mem_identifiers hfirst) (ascii_of_mem_identifiers hsecond)]
  by_contra notBefore
  exact h.2 (Text.eq_of_not_isBefore h.1 (by simpa using notBefore))

/-- The `identifiers` of the value list `raw`. In typed order they are those tokens whose constant name no token
before has: none is empty, all have word characters only, no two have the same constant name, and each token is
represented by the first one with its constant name. The sorted order is the only order in which their bytes
ascend strictly. -/
theorem distinct_identifiers (raw : Text) :
    let tokens := (((raw.splitOn ',').map Text.trim).filter (·.any isWordChar)).map sanitize
    identifiers raw false = firsts constantName tokens ∧
    (∀ identifier ∈ identifiers raw false, identifier ≠ [] ∧ ∀ c ∈ identifier, isWordChar c = true) ∧
    ((identifiers raw false).map constantName).Nodup ∧
    (∀ token ∈ tokens, ∃ first ∈ identifiers raw false,
      tokens.find? (constantName · = constantName token) = some first) ∧
    ∀ ordered, ordered = identifiers raw true ↔
      ordered.Perm (identifiers raw false) ∧ ordered.Pairwise Text.BytesBefore := by
  refine ⟨identifiers_false raw, fun _ => wordChars_of_mem_identifiers,
    nodup_map_constantName raw false, ?_, fun ordered => ⟨?_, ?_⟩⟩
  · -- the first token with the name is kept, and it is the first kept one with it
    intro token member
    have found : ((tokens raw).find? (constantName · = constantName token)).isSome := by
      rw [List.find?_isSome]
      exact ⟨token, member, by simp⟩
    obtain ⟨first, found⟩ := Option.isSome_iff_exists.1 found
    refine ⟨first, ?_, found⟩
    rw [identifiers_false]
    rw [← find?_firsts] at found
    exact List.mem_of_find?_eq_some found
  · rintro rfl
    exact ⟨identifiers_perm raw true, pairwise_identifiers_true raw⟩
  · rintro ⟨same, ascending⟩
    refine (same.trans (identifiers_perm raw true).symm).eq_of_pairwise ?_ ascending
      (pairwise_identifiers_true raw)
    exact fun first second _ _ before after => absurd after before.asymm

example : identifiers "b, C!, a b, B, !!, c?" false = ["b".toList, "C_".toList, "a_b".toList] := by
  decide

end LabelledEnum.ValueList
