import LabelledEnum.ClassId
import LabelledEnum.Proofs.Files.Joining
import LabelledEnum.Proofs.Identifier
import LabelledEnum.Proofs.Text.Split

/-!
# The names that a class id gives

A class id names a class, and a file below some directories. No character of a class id or of its class
name means anything in a path but the slash, at which the directories are taken apart.

* `ClassId.isFollowing_of_mem_text`: the characters of a class id.
* `ClassId.isAlphanum_of_mem_className`, `ClassId.className_ne_nil`: the class name is a word.
* `ClassId.isComponent_of_mem_subdirectories`, `ClassId.isComponent_fileName`: the directories and the
  file are plain components of a path.
* `ClassId.stem_fileName`: the file is named for the class.
-/

namespace LabelledEnum.ClassId

variable {id : ClassId} {c : Char}

/-- Every character of `id.text` can follow in a class id, the first one too. -/
theorem isFollowing_of_mem_text (member : c ∈ id.text) : isFollowing c = true := by
  obtain ⟨text, wellFormed⟩ := id
  cases text with
  | nil => cases member
  | cons first rest =>
    rcases List.mem_cons.1 member with rfl | later
    · -- what may begin a class id may also follow in it
      have lower : c.isLower = true := wellFormed.1
      simp [isFollowing, lower]
    · exact wellFormed.2 c later

/-- There is no dot in `id.text`, so what follows one in a file name is the extension. -/
theorem dot_notMem_text (id : ClassId) : '.' ∉ id.text :=
  fun member => absurd (isFollowing_of_mem_text member) (by decide)

/-! ## The class name -/

/-- What `isFollowing` allows is a letter or digit unless it separates words. -/
theorem isAlphanum_of_isFollowing (follows : isFollowing c = true) (inside : isSeparator c = false) :
    c.isAlphanum = true := by
  have kinds : (c.isLower || c.isDigit) = true := by
    simpa [isFollowing, inside] using follows
  change ((c.isUpper || c.isLower) || c.isDigit) = true
  rw [Bool.or_assoc, kinds, Bool.or_true]

/-- Neither of the two `separators` is a letter. -/
theorem isSeparator_of_isInitial (initial : isInitial c = true) : isSeparator c = false := by
  have lower : c.isLower = true := initial
  refine Bool.eq_false_iff.2 fun separates => ?_
  have member : c ∈ separators := by simpa [isSeparator] using separates
  have letters : separators.all (!·.isLower) = true := by decide
  simpa [lower] using List.all_eq_true.1 letters c member

private theorem mem_capitalize {piece : Text} (member : c ∈ capitalize piece) :
    ∃ d ∈ piece, c = d ∨ c = d.toUpper := by
  cases piece with
  | nil => cases member
  | cons first rest =>
    rcases List.mem_cons.1 member with rfl | later
    · exact ⟨first, List.mem_cons_self, .inr rfl⟩
    · exact ⟨c, List.mem_cons_of_mem _ later, .inl rfl⟩

/-- The class name `id.className` has letters and digits only. -/
theorem isAlphanum_of_mem_className (member : c ∈ id.className) : c.isAlphanum = true := by
  obtain ⟨word, isWord, member⟩ := List.mem_flatten.1 member
  obtain ⟨piece, split, rfl⟩ := List.mem_map.1 isWord
  obtain ⟨d, inside, spelt⟩ := mem_capitalize member
  -- the character comes from one of the class id that is no separator
  obtain ⟨written, word⟩ := Text.of_mem_splitOnP split d inside
  have plain := isAlphanum_of_isFollowing (isFollowing_of_mem_text written) word
  rcases spelt with rfl | rfl
  · exact plain
  · exact isAlphanum_toUpper plain

/-- What `camelCase` writes begins with the character `first` in upper case, if that separates nothing. -/
theorem camelCase_cons {first : Char} (inside : isSeparator first = false) (rest : Text) :
    ∃ more, camelCase (first :: rest) = first.toUpper :: more := by
  obtain ⟨piece, others, pieces⟩ :=
    List.exists_cons_of_ne_nil (List.splitOnP_ne_nil isSeparator rest)
  refine ⟨piece ++ (others.map capitalize).flatten, ?_⟩
  -- the first character is the first one of the first word
  rw [camelCase, List.splitOnP_cons_eq_if_modifyHead, inside, if_neg Bool.false_ne_true, pieces]
  rfl

theorem className_ne_nil (id : ClassId) : id.className ≠ [] := by
  obtain ⟨text, wellFormed⟩ := id
  cases text with
  | nil => exact wellFormed.elim
  | cons first rest =>
    obtain ⟨more, named⟩ := camelCase_cons (isSeparator_of_isInitial wellFormed.1) rest
    rw [className, named]
    exact List.cons_ne_nil _ _

/-! ## The directories and the file -/

/-- Each of `id.subdirectories` leads one step down and nowhere else. -/
theorem isComponent_of_mem_subdirectories {component : Text} (member : component ∈ id.subdirectories) :
    Path.IsComponent component := by
  obtain ⟨piece, filled⟩ := List.mem_filter.1 (List.dropLast_subset _ member)
  refine Path.isComponent_of_notMem (by simpa using filled) (Text.notMem_of_mem_splitOn piece) ?_
  exact fun dot => id.dot_notMem_text (Text.mem_of_mem_splitOn piece dot)

/-- The only characters of `id.fileName` are letters, digits and the dot. -/
theorem notMem_fileName (plain : c.isAlphanum = false) (other : c ≠ '.') : c ∉ id.fileName := by
  intro member
  rcases List.mem_append.1 member with member | member
  · rcases List.mem_append.1 member with member | member
    · rw [isAlphanum_of_mem_className member] at plain
      cases plain
    · exact other (List.mem_singleton.1 member)
  · -- the extension has letters only
    have letters : fileExtension.all Char.isAlphanum = true := by decide
    rw [List.all_eq_true.1 letters c member] at plain
    cases plain

/-- As a component of a path, `id.fileName` leads one step down. -/
theorem isComponent_fileName (id : ClassId) : Path.IsComponent id.fileName where
  ne_nil := by simp [fileName]
  slash_notMem := notMem_fileName (by decide) (by decide)
  ne_dot same := by simpa [fileName, fileExtension] using congrArg List.getLast? same
  ne_dots same := by simpa [fileName, fileExtension] using congrArg List.getLast? same

/-- The file of a class is named for the class: without its extension, `id.fileName` is `id.className`. -/
theorem stem_fileName (id : ClassId) : Path.stem id.fileName = id.className := by
  have spelt : id.fileName = id.className ++ '.' :: fileExtension := by simp [fileName]
  rw [spelt]
  exact Path.stem_append id.className_ne_nil (by decide)

end LabelledEnum.ClassId
