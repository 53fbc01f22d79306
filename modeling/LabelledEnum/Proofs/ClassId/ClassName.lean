import LabelledEnum.Proofs.ClassId
import LabelledEnum.Proofs.Request

/-!
# Class names and the class ids that give them

A class name is the class id without its separators, with a capital where a word begins. So the separators
decide where the capitals are and nothing else, and in lower case, in which reserved words are looked up, they
leave no trace.

* `ClassId.bare`, `ClassId.lower_camelCase`: the class name in lower case.
* `ClassId.Spells`, `ClassId.exists_spells`: a class id is made of words with separators after them.
* `ClassId.camelCase_of_spells`: the words decide on the class name, whatever stands between them.
* `ClassId.className_by_words`: all of this together, with the class ids whose class names are reserved.
-/

namespace LabelledEnum.ClassId

variable {text word separators : Text} {words : List Text} {c : Char}

/-! ## Lower case -/

/-- The `text` without the dashes and slashes in it. -/
def bare (text : Text) : Text := text.filter fun c => c ≠ '-' ∧ c ≠ '/'

/-- What `bare` takes away are the separators. -/
theorem bare_eq_filter (text : Text) : bare text = text.filter (!isSeparator ·) := by
  refine List.filter_congr fun c _ => ?_
  simp [isSeparator, separators]

/-- What `isFollowing` allows in a word is in lower case, and comes back from upper case. -/
private theorem toLower_of_isFollowing (follows : isFollowing c = true)
    (inside : isSeparator c = false) : c.toLower = c ∧ c.toUpper.toLower = c := by
  have kinds : (c.isLower || c.isDigit) = true := by
    simpa [isFollowing, inside] using follows
  have word : isWordChar c = true := by
    simp [isWordChar, isAlphanum_of_isFollowing follows inside]
  exact of_isWordChar (fun c => (c.isLower || c.isDigit) = true → c.toLower = c ∧ c.toUpper.toLower = c)
    (by decide) word kinds

/-- The lower case of `capitalize word` is `word`, if that is written in lower case. -/
private theorem lower_capitalize (plain : ∀ c ∈ word, c.toLower = c ∧ c.toUpper.toLower = c) :
    (capitalize word).lower = word := by
  cases word with
  | nil => rfl
  | cons first rest =>
    rw [List.forall_mem_cons] at plain
    have same : rest.map Char.toLower = rest.map fun c => c :=
      List.map_congr_left fun c member => (plain.2 c member).1
    rw [capitalize, Text.lower, List.map_cons, plain.1.2, same, List.map_id']

/-- In lower case, `id.className` is the class id without the separators. -/
theorem lower_className (id : ClassId) : id.className.lower = bare id.text := by
  have word : ∀ word ∈ id.text.splitOnP isSeparator, (capitalize word).lower = word := by
    intro word split
    refine lower_capitalize fun c member => ?_
    obtain ⟨written, inside⟩ := Text.of_mem_splitOnP split c member
    exact toLower_of_isFollowing (isFollowing_of_mem_text written) inside
  calc id.className.lower
      = ((id.text.splitOnP isSeparator).map fun word => (capitalize word).lower).flatten := by
        rw [className, camelCase, Text.lower, List.map_flatten, List.map_map]
        rfl
    _ = (id.text.splitOnP isSeparator).flatten := by
        rw [List.map_congr_left word, List.map_id']
    _ = bare id.text := by rw [Text.flatten_splitOnP, bare_eq_filter]

/-! ## Words -/

/-- A word of a class id: some characters without a separator among them. What `Spells` puts together are
words. -/
structure IsWord (word : Text) : Prop where
  /-- There is a first character. -/
  ne_nil : word ≠ []
  /-- It is not taken apart. -/
  whole : ∀ c ∈ word, isSeparator c = false

instance (word : Text) : Decidable (IsWord word) :=
  decidable_of_iff (word ≠ [] ∧ word.all (!isSeparator ·) = true)
    ⟨fun ⟨filled, whole⟩ => ⟨filled, by simpa using whole⟩,
      fun isWord => ⟨isWord.ne_nil, by simpa using isWord.whole⟩⟩

/-- The words spell the text, with separators between them and perhaps at its end. None stands before the first
one, where `isInitial` excludes it. -/
inductive Spells : List Text → Text → Prop
  /-- The last word can have `separators` after it. -/
  | last {word separators : Text} (isWord : IsWord word)
      (separate : ∀ c ∈ separators, isSeparator c = true) : Spells [word] (word ++ separators)
  /-- Every other word has to have `separators` after it, before what the others spell. -/
  | next {word separators rest : Text} {words : List Text} (isWord : IsWord word)
      (separate : ∀ c ∈ separators, isSeparator c = true) (apart : separators ≠ [])
      (others : Spells words rest) : Spells (word :: words) (word ++ separators ++ rest)

/-- What `camelCase` writes for the texts before and after a separator `c` is written for each of them alone. -/
theorem camelCase_append_separator (separates : isSeparator c = true) (front back : Text) :
    camelCase (front ++ c :: back) = camelCase front ++ camelCase back := by
  rw [camelCase, List.splitOnP_append_cons _ _ separates, List.map_append, List.flatten_append]
  rfl

/-- The class name goes on after `separators` as if it began there. -/
theorem camelCase_append_separators (separate : ∀ c ∈ separators, isSeparator c = true)
    (apart : separators ≠ []) (front back : Text) :
    camelCase (front ++ separators ++ back) = camelCase front ++ camelCase back := by
  induction separators generalizing front with
  | nil => exact absurd rfl apart
  | cons c rest ih =>
    rw [List.forall_mem_cons] at separate
    cases rest with
    | nil =>
      rw [List.append_assoc]
      exact camelCase_append_separator separate.1 front back
    | cons d others =>
      -- between two separators there is nothing that the class name could take up
      have step : camelCase (front ++ [c]) = camelCase front := by
        rw [camelCase_append_separator separate.1]
        exact List.append_nil _
      have moved : front ++ c :: d :: others ++ back = front ++ [c] ++ d :: others ++ back := by simp
      rw [moved, ih separate.2 (List.cons_ne_nil d others), step]

/-- Of a single word `camelCase` makes the capitalized word. -/
theorem camelCase_of_isWord (isWord : IsWord word) : camelCase word = capitalize word := by
  rw [camelCase, List.splitOnP_eq_singleton isWord.whole, List.map_singleton, List.flatten_singleton]

/-- The class name is made of the `words` that spell the class id, each capitalized. -/
theorem camelCase_of_spells (spelt : Spells words text) :
    camelCase text = (words.map capitalize).flatten := by
  induction spelt with
  | @last word separators isWord separate =>
    rw [List.map_singleton, List.flatten_singleton, ← camelCase_of_isWord isWord]
    cases separators with
    | nil => rw [List.append_nil]
    | cons c rest =>
      have ended := camelCase_append_separators separate (List.cons_ne_nil c rest) word []
      rwa [List.append_nil, show camelCase [] = [] from rfl, List.append_nil] at ended
  | next isWord separate apart others ih =>
    rw [camelCase_append_separators separate apart, camelCase_of_isWord isWord, ih, List.map_cons,
      List.flatten_cons]

/-- Every `text` is one that words spell, or nothing, with separators before it. -/
private theorem exists_spells_append (text : Text) :
    ∃ separators rest, text = separators ++ rest ∧ (∀ c ∈ separators, isSeparator c = true) ∧
      (rest = [] ∨ ∃ words, Spells words rest) := by
  induction text with
  | nil => exact ⟨[], [], rfl, by simp, .inl rfl⟩
  | cons c text ih =>
    obtain ⟨separators, rest, rfl, separate, spelt⟩ := ih
    cases kind : isSeparator c with
    | true =>
      exact ⟨c :: separators, rest, rfl, List.forall_mem_cons.2 ⟨kind, separate⟩, spelt⟩
    | false =>
      have single : IsWord [c] := ⟨List.cons_ne_nil c [], by simpa using kind⟩
      refine ⟨[], c :: (separators ++ rest), rfl, by simp, .inr ?_⟩
      rcases spelt with rfl | ⟨words, spelt⟩
      · rw [List.append_nil]
        exact ⟨[[c]], .last single separate⟩
      · cases separators with
        | cons d others =>
          exact ⟨[c] :: words, .next single separate (List.cons_ne_nil d others) spelt⟩
        | nil =>
          -- the character and the first word are one word
          have longer : ∀ {word : Text}, IsWord word → IsWord (c :: word) := fun isWord =>
            ⟨List.cons_ne_nil c _, List.forall_mem_cons.2 ⟨kind, isWord.whole⟩⟩
          cases spelt with
          | last isWord separate => exact ⟨_, .last (longer isWord) separate⟩
          | next isWord separate apart others =>
            exact ⟨_, .next (longer isWord) separate apart others⟩

/-- Every class id is spelt by `words`, since it does not begin with a separator. -/
theorem exists_spells (id : ClassId) : ∃ words, Spells words id.text := by
  obtain ⟨separators, rest, split, separate, spelt⟩ := exists_spells_append id.text
  obtain ⟨text, wellFormed⟩ := id
  cases separators with
  | nil =>
    rw [List.nil_append] at split
    subst split
    exact spelt.resolve_left wellFormed.ne_nil
  | cons c others =>
    -- a class id does not begin with a separator
    cases split
    rw [List.forall_mem_cons] at separate
    rw [isSeparator_of_isInitial wellFormed.1] at separate
    cases separate.1

/-! ## Class names -/

/-- In upper case, a first character of a class id is a capital. -/
theorem isUpper_toUpper_of_isInitial (initial : isInitial c = true) : c.toUpper.isUpper = true := by
  have follows : isFollowing c = true := by
    have lower : c.isLower = true := initial
    simp [isFollowing, lower]
  have letter : isWordChar c = true := by
    rw [isWordChar, isAlphanum_of_isFollowing follows (isSeparator_of_isInitial initial), Bool.true_or]
  exact of_isWordChar (fun c => c.isLower = true → c.toUpper.isUpper = true) (by decide) letter initial

/-- What `id.className` gives is a capital with letters and digits after it. -/
theorem exists_capital_className (id : ClassId) :
    ∃ first rest, id.className = first :: rest ∧ first.isUpper = true ∧
      ∀ c ∈ rest, c.isAlphanum = true := by
  have plain : ∀ c ∈ id.className, c.isAlphanum = true := fun _ => isAlphanum_of_mem_className
  obtain ⟨text, wellFormed⟩ := id
  cases text with
  | nil => exact wellFormed.elim
  | cons first rest =>
    obtain ⟨more, named⟩ := camelCase_cons (isSeparator_of_isInitial wellFormed.1) rest
    have named : className ⟨first :: rest, wellFormed⟩ = first.toUpper :: more := named
    rw [named, List.forall_mem_cons] at plain
    exact ⟨_, more, named, isUpper_toUpper_of_isInitial wellFormed.1, plain.2⟩

/-- The name `id.className` is reserved if the class id without the separators is a reserved word. -/
theorem isReservedClassName_className_iff (id : ClassId) :
    isReservedClassName id.className = true ↔ bare id.text ∈ Reserved.classNames := by
  rw [isReservedClassName, lower_className, List.contains_iff_mem]

/-- A `request` with nothing wrong in it but perhaps its class name is rejected for that name if the class id
without the separators is a reserved word. -/
theorem check_eq_reservedClassName_iff {request : Request} {id : ClassId} {name : Text}
    (accepted : parse request.classId.trim = .ok id) (values : request.values.trim ≠ [])
    (given : request.start ≠ none) :
    request.check = .error (.reservedClassName name) ↔
      name = id.className ∧ bare id.text ∈ Reserved.classNames := by
  have filled : request.classId.trim ≠ [] := by
    rw [parse_eq_ok_iff.1 accepted]
    exact id.wellFormed.ne_nil
  rw [← isReservedClassName_className_iff]
  constructor
  · intro rejected
    rcases Request.check_eq_error_iff.1 rejected with
      ⟨empty, -⟩ | ⟨-, empty, -⟩ | ⟨-, -, missing, -⟩ | ⟨-, -, -, refused⟩
    · exact absurd empty filled
    · exact absurd empty values
    · exact absurd missing given
    · rcases parseUnreserved_eq_error_iff.1 refused with faulty | ⟨same, spelt, reserved, named⟩
      · cases faulty.symm.trans accepted
      · -- a text spells one class id only
        cases (parse_eq_ok_iff.2 spelt).symm.trans accepted
        cases named
        exact ⟨rfl, reserved⟩
  · rintro ⟨rfl, reserved⟩
    exact Request.check_eq_error_iff.2 (.inr (.inr (.inr ⟨filled, values, given,
      parseUnreserved_eq_error_iff.2 (.inr ⟨id, parse_eq_ok_iff.1 accepted, reserved, rfl⟩)⟩)))

/-- The class name that an accepted `text` gives is a capital with letters and digits after it, and in lower
case it is `bare text`. Words spell the text, and every class id that the same words spell gives the same name,
whatever separates them. A request in which nothing else is wrong is rejected for this name exactly if
`bare text` is a reserved word. -/
theorem className_by_words {text : Text} {id : ClassId} (accepted : parse text = .ok id) :
    (∃ first rest, id.className = first :: rest ∧ first.isUpper = true ∧
      ∀ c ∈ rest, c.isAlphanum = true) ∧
    id.className.lower = bare text ∧
    (∃ words, Spells words text) ∧
    (∀ words, Spells words text → ∀ other : ClassId, Spells words other.text →
      other.className = id.className) ∧
    ∀ request : Request, request.classId.trim = text → request.values.trim ≠ [] →
      request.start ≠ none → ∀ name, request.check = .error (.reservedClassName name) ↔
        name = id.className ∧ bare text ∈ Reserved.classNames := by
  obtain rfl := parse_eq_ok_iff.1 accepted
  refine ⟨exists_capital_className id, lower_className id, exists_spells id, ?_, ?_⟩
  · intro words spelt other same
    rw [className, className, camelCase_of_spells spelt, camelCase_of_spells same]
  · intro request trimmed values given name
    rw [← trimmed] at accepted
    exact check_eq_reservedClassName_iff accepted values given

/-- A separator inside a reserved word and others after it do not hide the word, and leave the class name as
any other ones would. -/
theorem className_by_words_in_clude :
    let request : Request := { classId := "\tin/clude-- ", values := "a" }
    let id : ClassId := ⟨"in/clude--", by decide⟩
    let other : ClassId := ⟨"in-/-clude", by decide⟩
    parse "in/clude--" = .ok id ∧ other.className = id.className ∧
      id.className.lower = ("include" : Text) ∧
      request.check = .error (.reservedClassName "InClude") := by
  intro request id other
  have accepted : parse "in/clude--" = .ok id := parse_eq_ok_iff.2 rfl
  obtain ⟨-, lower, -, same, reserved⟩ := className_by_words accepted
  have single : Spells ["clude"] "clude--" :=
    @Spells.last "clude" "--" (by decide) (List.all_eq_true.1 rfl)
  have spelt : Spells ["in", "clude"] "in/clude--" :=
    @Spells.next "in" "/" "clude--" _ (by decide) (List.all_eq_true.1 rfl) (by decide) single
  have single' : Spells ["clude"] "clude" :=
    @Spells.last "clude" [] (by decide) (List.all_eq_true.1 rfl)
  have spelt' : Spells ["in", "clude"] other.text :=
    @Spells.next "in" "-/-" "clude" _ (by decide) (List.all_eq_true.1 rfl) (by decide) single'
  refine ⟨accepted, same _ spelt other spelt', lower.trans (by decide), ?_⟩
  exact (reserved request (by decide +kernel) (by decide +kernel) (by decide) "InClude").2
    ⟨by decide, by decide⟩

end LabelledEnum.ClassId
