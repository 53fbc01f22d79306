import LabelledEnum.Generation
import LabelledEnum.Proofs.ValueList.Labels

/-!
# What is logged about a class

The names of constants are not checked before the class is made, but those that PHP cannot declare are logged.
Since they have word characters only, a name that is no identifier of PHP begins with a digit.

* `IsPhpIdentifier`, `Undeclarable`: the names that PHP cannot declare, said without the check.
* `suspicious_eq`, `mem_suspicious_iff`: the check finds these names, with the reason.
* `Event.entry`: what a log shows of an event.
* `Generation.logs_undeclarable_names`: they are found in their order, and the log has one warning for each.
-/

namespace LabelledEnum

/-! ## Names that PHP cannot declare -/

/-- An identifier of PHP is a letter or `_` with letters, digits and `_` after it. -/
def IsPhpIdentifier : Text → Prop
  | [] => False
  | c :: rest => (c.isAlpha = true ∨ c = '_') ∧ ∀ d ∈ rest, isWordChar d = true

instance : (name : Text) → Decidable (IsPhpIdentifier name)
  | [] => inferInstanceAs (Decidable False)
  | c :: rest =>
    inferInstanceAs (Decidable ((c.isAlpha = true ∨ c = '_') ∧ ∀ d ∈ rest, isWordChar d = true))

/-- In some case of its letters, `name` is `class`, by which PHP denotes the name of a class. -/
def IsClassWord (name : Text) : Prop := name.lower = "class"

instance (name : Text) : Decidable (IsClassWord name) :=
  inferInstanceAs (Decidable (name.lower = "class"))

/-- PHP can declare a constant with the name `name` neither if that is no identifier nor if it is `class`. -/
def Undeclarable (name : Text) : Prop := ¬IsPhpIdentifier name ∨ IsClassWord name

instance (name : Text) : Decidable (Undeclarable name) :=
  inferInstanceAs (Decidable (¬IsPhpIdentifier name ∨ IsClassWord name))

/-- Why PHP cannot declare `name`, if it cannot. -/
def reasonFor (name : Text) : Issue := if IsPhpIdentifier name then .reserved else .leadingDigit

section

variable {name : Text} (words : ∀ c ∈ name, isWordChar c = true)
include words

theorem lower_upper : name.upper.lower = name.lower := by
  rw [Text.upper, Text.lower, List.map_map]
  refine List.map_congr_left fun c member => ?_
  exact of_isWordChar (fun c => c.toUpper.toLower = c.toLower) (by decide) (words c member)

theorem upper_lower : name.lower.upper = name.upper := by
  rw [Text.lower, Text.upper, List.map_map]
  refine List.map_congr_left fun c member => ?_
  exact of_isWordChar (fun c => c.toLower.toUpper = c.toUpper) (by decide) (words c member)

/-- The case in which `name` is looked up among the reserved ones does not matter. -/
theorem isReservedConstantName_iff : isReservedConstantName name = true ↔ IsClassWord name := by
  rw [IsClassWord, isReservedConstantName, List.contains_iff_mem, Reserved.constantNames, List.mem_singleton]
  constructor
  · intro reserved
    rw [← lower_upper words, reserved]
    decide
  · intro reserved
    rw [← upper_lower words, reserved]
    decide

/-- A `name` with word characters only that is no identifier begins with a digit. -/
theorem isPhpIdentifier_iff (filled : name ≠ []) :
    IsPhpIdentifier name ↔ name.head?.any Char.isDigit = false := by
  cases name with
  | nil => exact absurd rfl filled
  | cons c rest =>
    rw [List.forall_mem_cons] at words
    have first : (c.isAlpha = true ∨ c = '_') ↔ c.isDigit = false :=
      of_isWordChar (fun c => isWordChar c = true → ((c.isAlpha = true ∨ c = '_') ↔ c.isDigit = false))
        (by decide) words.1 words.1
    exact ⟨fun isIdentifier => first.1 isIdentifier.1, fun initial => ⟨first.2 initial, words.2⟩⟩

/-- The word `class` is an identifier, so no name has both faults. -/
theorem isPhpIdentifier_of_isClassWord (same : IsClassWord name) : IsPhpIdentifier name := by
  cases name with
  | nil => cases same
  | cons c rest =>
    rw [isPhpIdentifier_iff words (List.cons_ne_nil c rest)]
    rw [List.forall_mem_cons] at words
    have first : c.toLower = 'c' := (List.cons.inj same).1
    exact of_isWordChar (fun c => c.toLower = 'c' → c.isDigit = false) (by decide) words.1 first

/-- What `issueOf?` finds out is whether PHP can declare the name. -/
theorem issueOf?_eq (filled : name ≠ []) :
    issueOf? name = if Undeclarable name then some (reasonFor name) else none := by
  have reserved := isReservedConstantName_iff words
  unfold issueOf? reasonFor
  cases digit : name.head?.any Char.isDigit with
  | true =>
    have other : ¬IsPhpIdentifier name := by simp [isPhpIdentifier_iff words filled, digit]
    simp [Undeclarable, other]
  | false =>
    have isIdentifier : IsPhpIdentifier name := (isPhpIdentifier_iff words filled).2 digit
    simp [Undeclarable, isIdentifier, reserved]

/-- Whether PHP can declare `name` and why it cannot is said by two conditions that exclude each other. -/
theorem undeclarable_and_eq_reasonFor_iff {issue : Issue} :
    Undeclarable name ∧ issue = reasonFor name ↔
      ¬IsPhpIdentifier name ∧ issue = .leadingDigit ∨ IsClassWord name ∧ issue = .reserved := by
  unfold Undeclarable reasonFor
  by_cases isIdentifier : IsPhpIdentifier name
  · simp [isIdentifier]
  · have other : ¬IsClassWord name := mt (isPhpIdentifier_of_isClassWord words) isIdentifier
    simp [isIdentifier, other]

end

section

variable {constants : List Constant}
  (words : ∀ constant ∈ constants, constant.name ≠ [] ∧ ∀ c ∈ constant.name, isWordChar c = true)
include words

/-- Of the names of `constants`, those are found that PHP cannot declare, with the reason. -/
theorem suspicious_eq :
    suspicious constants =
      ((constants.map Constant.name).filter Undeclarable).map fun name => (name, reasonFor name) := by
  induction constants with
  | nil => rfl
  | cons constant others ih =>
    rw [List.forall_mem_cons] at words
    have later : suspicious others = _ := ih words.2
    unfold suspicious at later ⊢
    rw [List.filterMap_cons, issueOf?_eq words.1.2 words.1.1, later, List.map_cons, List.filter_cons]
    by_cases undeclarable : Undeclarable constant.name <;> simp [undeclarable]

/-- The names found suspicious are those that are `Undeclarable`. -/
theorem map_fst_suspicious :
    (suspicious constants).map Prod.fst = (constants.map Constant.name).filter Undeclarable := by
  rw [suspicious_eq words, List.map_map]
  exact List.map_id _

/-- A name is found with an `issue` exactly if it is one of a constant and the issue is what is wrong with
it. -/
theorem mem_suspicious_iff {name : Text} {issue : Issue} :
    (name, issue) ∈ suspicious constants ↔ name ∈ constants.map Constant.name ∧
      (¬IsPhpIdentifier name ∧ issue = .leadingDigit ∨ IsClassWord name ∧ issue = .reserved) := by
  have found : (name, issue) ∈ suspicious constants ↔
      name ∈ constants.map Constant.name ∧ (Undeclarable name ∧ issue = reasonFor name) := by
    rw [suspicious_eq words]
    simp only [List.mem_map (f := fun name => (name, reasonFor name)), List.mem_filter, decide_eq_true_eq,
      Prod.mk.injEq]
    constructor
    · rintro ⟨_, ⟨member, undeclarable⟩, rfl, rfl⟩
      exact ⟨member, undeclarable, rfl⟩
    · rintro ⟨member, undeclarable, rfl⟩
      exact ⟨name, ⟨member, undeclarable⟩, rfl, rfl⟩
  rw [found]
  refine and_congr_right fun member => ?_
  obtain ⟨constant, declared, rfl⟩ := List.mem_map.1 member
  exact undeclarable_and_eq_reasonFor_iff (words constant declared).2

end

/-- The name of a `constant` is not empty and has word characters only. -/
theorem ValueList.wordChars_name_of_mem_constants {raw : Text} {sort : Bool} {constant : Constant}
    (member : constant ∈ constants raw sort) :
    constant.name ≠ [] ∧ ∀ c ∈ constant.name, isWordChar c = true := by
  obtain ⟨filled, words⟩ := wordChars_of_mem_identifiers (identifier_mem_of_mem_constants member)
  refine ⟨fun empty => filled (List.map_eq_nil_iff.1 empty), fun c => ?_⟩
  exact isWordChar_of_mem_constantName words

/-! ## Logs -/

/-- What a log shows of an event. -/
structure LogEntry where
  /-- How important it is. -/
  level : Level
  /-- What has happened. -/
  message : Text
  /-- The particulars, each with its name. -/
  fields : List (Text × Text)
  deriving DecidableEq

/-- What a log shows of `event`. -/
def Event.entry (event : Event) : LogEntry := ⟨event.level, event.message, event.fields⟩

namespace LogEntry

/-- The entry on the number of constants, `count`, that a class will have. -/
def counted (classId : Text) (count : Nat) (sort : Bool) : LogEntry :=
  ⟨.debug, "normalized constant values",
    [("class", classId), ("count", Text.ofNat count), ("sort", if sort then "true" else "false")]⟩

/-- The warning of `name`, which PHP cannot declare. -/
def warned (name : Text) : LogEntry :=
  ⟨.warn,
    if IsPhpIdentifier name then "constant name is reserved in PHP"
    else "constant name starts with a digit and is not a valid PHP identifier",
    [("constant", name)]⟩

/-- The entry on the path `path` at which a class belongs. -/
def resolved (path : Text) : LogEntry := ⟨.debug, "resolved output path", [("path", path)]⟩

end LogEntry

namespace Generation

variable {generation : Generation}

/-- The names that are warned of in `constantsLog` are those that PHP cannot declare, each with the reason. -/
theorem map_entry_constantsLog (generation : Generation) :
    generation.constantsLog.map Event.entry =
      .counted generation.request.classId.text generation.constants.length generation.request.sort ::
        ((generation.constants.map Constant.name).filter Undeclarable).map LogEntry.warned := by
  have warning : ∀ name, Event.entry (.suspiciousName name (reasonFor name)) = LogEntry.warned name := by
    intro name
    unfold LogEntry.warned reasonFor
    split <;> rfl
  have listed : suspicious generation.constants = _ :=
    suspicious_eq fun _ => ValueList.wordChars_name_of_mem_constants
  rw [constantsLog, listed, List.map_cons, List.map_map, List.map_map]
  exact congrArg _ (List.map_congr_left fun name _ => warning name)

/-- What is `suspicious` about the constants of a value list are exactly the names that PHP cannot declare, in
the order of the constants and each once: those that are no identifiers for the digit with which they begin, and
those that are `class` in some case of their letters as reserved. What is logged about any class is the number
of its constants, then one warning for each of these names in this order, and then its path, if a directory has
been found for it. -/
theorem logs_undeclarable_names :
    (∀ (raw : Text) (sort : Bool),
      let names := (ValueList.constants raw sort).map Constant.name
      let listed := suspicious (ValueList.constants raw sort)
      listed.map Prod.fst = names.filter Undeclarable ∧ (listed.map Prod.fst).Nodup ∧
        ∀ name issue, (name, issue) ∈ listed ↔ name ∈ names ∧
          (¬IsPhpIdentifier name ∧ issue = .leadingDigit ∨ IsClassWord name ∧ issue = .reserved)) ∧
    ∀ (generation : Generation) (layout : Layout),
      let constants := ValueList.constants generation.request.values generation.request.sort
      let entries := (generation.log layout).map Event.entry
      let announced := .counted generation.request.classId.text constants.length generation.request.sort ::
        (suspicious constants).map fun listed => LogEntry.warned listed.1
      match layout.directory generation.request.inNamespace with
      | .ok _ =>
        ∃ file, generation.file layout = .ok file ∧ entries = announced ++ [.resolved file.path]
      | .error failure => generation.file layout = .error failure ∧ entries = announced := by
  have words (raw : Text) (sort : Bool) : ∀ constant ∈ ValueList.constants raw sort, _ :=
    fun _ => ValueList.wordChars_name_of_mem_constants
  refine ⟨fun raw sort => ⟨map_fst_suspicious (words raw sort), ?_, fun _ _ =>
    mem_suspicious_iff (words raw sort)⟩, fun generation layout => ?_⟩
  · rw [map_fst_suspicious (words raw sort)]
    exact (ValueList.nodup_map_name_constants raw sort).filter _
  · intro constants entries announced
    have warned : generation.constantsLog.map Event.entry = announced := by
      rw [map_entry_constantsLog, Generation.constants, ← map_fst_suspicious (words _ _), List.map_map]
      rfl
    have logged : entries = announced ++ (pathLog (generation.path layout)).map Event.entry := by
      rw [← warned, ← List.map_append]
      rfl
    -- the path is looked for last, and what comes before it does not depend on it
    rw [logged, Generation.file, Generation.path]
    cases layout.directory generation.request.inNamespace with
    | ok directory => exact ⟨⟨_, generation.source⟩, rfl, rfl⟩
    | error failure => exact ⟨rfl, List.append_nil announced⟩

-- a digit after the first character and a longer word are no reasons
example : suspicious (ValueList.constants "paid1, 2nd, Class, class_room, 7" false) =
    ([("2ND", .leadingDigit), ("CLASS", .reserved), ("7", .leadingDigit)] : List (Text × Issue)) := by
  decide

end Generation

end LabelledEnum
