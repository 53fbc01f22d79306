import LabelledEnum.Files.Disk.Walk
import LabelledEnum.Proofs.Text.Split

/-!
# Paths above a path

The parent of a path, and the parent of that, are beginnings of the path that leave out names at its end.

* `Path.IsAbove`: one path is the beginning of another and has fewer names.
* `Path.IsAbove.trans`: what is above a path above another one is above that one.
* `Path.isAbove_of_parent?`: the parent of a path is above it.
-/

namespace LabelledEnum.Path

/-- The path `up` is the beginning of `path`, and its names are the first names of `path` without the last. -/
structure IsAbove (up path : Text) : Prop where
  /-- As a text it is a beginning. -/
  text_isPrefix : up <+: path
  /-- Its names are the first ones. -/
  names_isPrefix : Disk.names up <+: Disk.names path
  /-- At least one name is left out. -/
  length_lt : (Disk.names up).length < (Disk.names path).length

theorem IsAbove.trans {top up path : Text} (first : IsAbove top up) (second : IsAbove up path) :
    IsAbove top path where
  text_isPrefix := first.text_isPrefix.trans second.text_isPrefix
  names_isPrefix := first.names_isPrefix.trans second.names_isPrefix
  length_lt := Nat.lt_trans first.length_lt second.length_lt

/-! ## The parent is above the path -/

private theorem names_intercalate {pieces : List Text} (noSlash : ∀ piece ∈ pieces, '/' ∉ piece) :
    Disk.names (List.intercalate ['/'] pieces) = pieces.filter (· ≠ []) := by
  cases pieces with
  | nil => rfl
  | cons piece rest =>
    rw [Disk.names, List.splitOn_intercalate '/' noSlash (List.cons_ne_nil _ _)]

/-- Behind the `anchor` of a path, the pieces that are kept give its further names. An anchor other than the
slash of the root is a name. -/
private theorem names_anchor_append {path : Text} {kept : List Text}
    (kept_isPrefix : kept <+: (path.drop (anchor path).length).splitOn '/') :
    Disk.names (anchor path ++ List.intercalate ['/'] kept) =
      Disk.names (anchor path) ++ kept.filter (· ≠ []) := by
  have noSlash : ∀ piece ∈ kept, '/' ∉ piece := fun piece member =>
    Text.notMem_of_mem_splitOn (kept_isPrefix.subset member)
  unfold anchor at kept_isPrefix ⊢
  split
  · -- an absolute path has an empty piece before its first slash
    rw [← names_intercalate noSlash, Disk.names, Disk.names, List.singleton_append,
      ← List.nil_append ('/' :: _), List.splitOn_append_cons_self]
    rfl
  · cases kept with
    | nil => rfl
    | cons piece rest =>
      obtain ⟨rfl, rfl⟩ : piece = [] ∧ rest = [] := by simpa using kept_isPrefix
      rfl
  · next tail =>
    cases kept with
    | nil => rfl
    | cons piece rest =>
      -- the dot becomes a piece together with the empty piece before the first slash
      have pieces : (('.' :: '/' :: tail).drop ['.'].length).splitOn '/' = [] :: tail.splitOn '/' :=
        List.splitOn_append_cons_self [] tail
      change piece :: rest <+: (('.' :: '/' :: tail).drop ['.'].length).splitOn '/' at kept_isPrefix
      rw [pieces, List.cons_prefix_cons] at kept_isPrefix
      obtain ⟨rfl, -⟩ := kept_isPrefix
      have dotted : ['.'] ++ List.intercalate ['/'] ([] :: rest) =
          List.intercalate ['/'] (['.'] :: rest) := by
        cases rest <;> rfl
      have noSlash' : ∀ piece ∈ ['.'] :: rest, '/' ∉ piece := by
        intro piece member
        rcases List.mem_cons.1 member with rfl | later
        · decide
        · exact noSlash piece (List.mem_cons_of_mem _ later)
      rw [dotted, names_intercalate noSlash']
      rfl
  · rw [List.nil_append, names_intercalate noSlash]
    rfl

/-- Without the idle ones of `pieces` at the end, without the last piece then left, and again without idle
pieces, there are fewer pieces that are not empty. -/
private theorem filter_dropIdle_dropLast {pieces : List Text} (h : dropIdle pieces ≠ []) :
    dropIdle (dropIdle pieces).dropLast <+: pieces ∧
      ((dropIdle (dropIdle pieces).dropLast).filter (· ≠ [])).length <
        (pieces.filter (· ≠ [])).length := by
  have front := dropIdle_isPrefix (dropIdle pieces).dropLast
  have whole : (dropIdle pieces).dropLast ++ [(dropIdle pieces).getLast h] <+: pieces := by
    rw [List.dropLast_concat_getLast h]
    exact dropIdle_isPrefix pieces
  -- the piece that is left out is a name
  have last_ne : (dropIdle pieces).getLast h ≠ [] := fun empty => by
    simpa [empty, isIdle] using isIdle_getLast_dropIdle h
  refine ⟨(front.trans (List.prefix_append ..)).trans whole, ?_⟩
  have fewer := (front.filter (· ≠ [])).length_le
  have more := (whole.filter (· ≠ [])).length_le
  rw [List.filter_append, List.filter_cons_of_pos (by simpa using last_ne), List.length_append,
    List.length_cons] at more
  omega

/-- The parent `up` of a path is above it. -/
theorem isAbove_of_parent? {path up : Text} (h : parent? path = some up) : IsAbove up path := by
  -- the path itself is its anchor and all its pieces
  have names_path := names_anchor_append
    (List.prefix_refl ((path.drop (anchor path).length).splitOn '/'))
  rw [List.intercalate_splitOn '/', anchor_append_drop] at names_path
  have text_isPrefix := parent?_isPrefix h
  simp only [parent?] at h
  split at h
  · split at h
    · next dot =>
      cases h
      refine ⟨text_isPrefix, List.nil_prefix, ?_⟩
      have dotName : Disk.names (anchor path) = [['.']] := by rw [dot]; rfl
      rw [names_path, dotName]
      exact Nat.succ_pos _
    · cases h
  · next piece rest kept =>
    cases h
    rw [← kept]
    have nonempty : dropIdle ((path.drop (anchor path).length).splitOn '/') ≠ [] := by simp [kept]
    obtain ⟨front, fewer⟩ := filter_dropIdle_dropLast nonempty
    refine ⟨by rw [kept]; exact text_isPrefix, ?_, ?_⟩
    · rw [names_anchor_append front, names_path, List.prefix_append_right_inj]
      exact front.filter _
    · rw [names_anchor_append front, names_path, List.length_append, List.length_append]
      exact Nat.add_lt_add_left fewer _

end LabelledEnum.Path
