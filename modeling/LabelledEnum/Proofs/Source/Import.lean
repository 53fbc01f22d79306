import LabelledEnum.Generation
import LabelledEnum.Proofs.ClassId.ClassName
import LabelledEnum.Proofs.Source.Docblock
import LabelledEnum.Proofs.Source.Heading

/-!
# The name of a class beside the name it imports

The source of a class imports its base class and so takes the short name of the base class for it. PHP does not
regard the case of class names, so the class itself cannot have this name in any case of its letters.

* `Text.lastRead?`, `Text.lastRead?_unlines`: the last line of a text from which something can be read.
* `Import.ofSource?`, `Import.ofSource?_source`: the class that a source imports.
* `Import.SameClass`: PHP takes two names for the same.
* `Import.sameClass_iff`: the class ids that give the class the name of its base class.
* `Import.not_every_class_apart`: such a class id is accepted.
-/

namespace LabelledEnum

/-! ## The last line of a form -/

/-- What the last line of `text` says from which `read` gets something. -/
def Text.lastRead? {Read : Type} (read : Text → Option Read) (text : Text) : Option Read :=
  (text.splitOn '\n').reverse.findSome? read

/-- The last line to say something is `line` if none of those in `after` does. -/
theorem Text.lastRead?_unlines {Read : Type} {read : Text → Option Read} (before : List Text)
    {line : Text} {after : List Text} {result : Read} (whole : ∀ other ∈ line :: after, '\n' ∉ other)
    (found : read line = some result) (unread : ∀ other ∈ [] :: after, read other = none) :
    lastRead? read (unlines (before ++ line :: after)) = some result := by
  have cut : (unlines (before ++ line :: after)).splitOn '\n' =
      before.flatMap (·.splitOn '\n') ++ line :: (after ++ [[]]) := by
    rw [unlines_append, splitOn_unlines_append, splitOn_unlines whole, List.cons_append]
  have later : (after ++ [[]]).reverse.findSome? read = none := by
    rw [List.findSome?_eq_none_iff]
    intro other member
    refine unread other ?_
    rwa [List.mem_reverse, List.mem_append, List.mem_singleton, or_comm, ← List.mem_cons] at member
  rw [lastRead?, cut, List.reverse_append, List.reverse_cons, List.append_assoc,
    List.findSome?_append, later, Option.none_or, List.singleton_append, List.findSome?_cons, found]

namespace Import

/-- The class that `line` imports, if it imports one. -/
def ofLine? (line : Text) : Option Text := (line.dropPrefix? "use ").bind (·.dropSuffix? ";")

/-- A `line` imports the class with this name if it is written so. -/
theorem ofLine?_eq_some_iff {line name : Text} :
    ofLine? line = some name ↔ line = "use " ++ (name ++ ";") := by
  simp only [ofLine?, Option.bind_eq_some_iff, Text.dropPrefix?_eq_some_iff,
    Text.dropSuffix?_eq_some_iff]
  exact ⟨fun ⟨_, opened, closed⟩ => closed ▸ opened, fun spelt => ⟨_, spelt, rfl⟩⟩

/-- A `line` that does not begin like an import imports nothing. -/
theorem ofLine?_eq_none {line : Text} (other : line.head? ≠ some 'u') : ofLine? line = none := by
  refine Option.eq_none_iff_forall_ne_some.2 fun name found => other ?_
  rw [ofLine?_eq_some_iff.1 found]
  rfl

/-- The class that the last importing line of `source` imports. -/
def ofSource? (source : Text) : Option Text := Text.lastRead? ofLine? source

/-! ## Sources of classes -/

variable {style : Style} {start : Int} {constants : List Constant} {line : Text}

/-- No `line` of the body begins like an import. -/
theorem head?_ne_of_mem_bodyLines (member : line ∈ EnumClass.bodyLines style start constants) :
    line.head? ≠ some 'u' := by
  intro first
  -- a line that begins so is not set in
  have outer : (ClassBody.unindent line).head? = some 'u' := by
    obtain ⟨rest, rfl⟩ := List.head?_eq_some_iff.1 first
    rfl
  rcases List.mem_append.1 member with member | member
  · rcases List.mem_append.1 member with member | member
    · exact absurd (outer ▸ ClassBody.head?_of_mem_declarationLines member) (by decide)
    · exact absurd (outer ▸ ClassBody.head?_of_mem_tableLines member) (by decide)
  · rw [List.mem_singleton.1 member] at first
    exact absurd first (by decide)

/-- No `line` of the docblock begins like an import. -/
theorem head?_ne_of_mem_docblock {author description : Text}
    (member : line ∈ Docblock.lines author description) : line.head? ≠ some 'u' := by
  rw [Docblock.lines_eq, List.mem_cons, List.mem_append, List.mem_singleton] at member
  rcases member with rfl | member | rfl
  · decide
  · obtain ⟨rest, rfl⟩ := Docblock.star_isPrefix_of_mem_innerLines member
    exact fun first => absurd (Option.some.inj first) (by decide)
  · decide

theorem newline_notMem_shortName {className : Text} (whole : '\n' ∉ className) :
    '\n' ∉ shortName className := by
  intro member
  exact whole (List.mem_reverse.1 (List.takeWhile_subset _ (List.mem_reverse.1 member)))

/-- The lines after the one that imports the base class of `style`. -/
def linesAfter (style : Style) (request : CheckedRequest) (constants : List Constant) : List Text :=
  [] :: (Docblock.lines request.author request.description ++
    ("class " ++ request.classId.className ++ " extends " ++ style.baseName) ::
      EnumClass.openingBrace :: EnumClass.bodyLines style request.start constants)

/-- The base class of `style` is imported above the docblock. -/
theorem source_eq_import (style : Style) (request : CheckedRequest) (constants : List Constant) :
    ∃ before, EnumClass.source style request constants =
      Text.unlines (before ++ ("use " ++ (style.baseClass ++ ";")) ::
        linesAfter style request constants) := by
  refine ⟨[("<?php" : Text)] ++ [[]] ++ (if request.inNamespace.isEmpty then []
    else ["namespace " ++ request.inNamespace.display ++ ";"] ++ [[]]), ?_⟩
  rw [EnumClass.source_eq_heading]
  simp only [EnumClass.headerLines, linesAfter, List.append_assoc, List.cons_append, List.nil_append]

/-- A `line` after the import is one of the docblock or of the class, or it is empty. -/
theorem of_mem_linesAfter {request : CheckedRequest}
    (member : line ∈ linesAfter style request constants) :
    line = [] ∨ line ∈ Docblock.lines request.author request.description ∨
      line = "class " ++ request.classId.className ++ " extends " ++ style.baseName ∨
      line = EnumClass.openingBrace ∨
      line ∈ EnumClass.bodyLines style request.start constants := by
  simpa only [linesAfter, List.mem_cons, List.mem_append] using member

/-- Every `line` after the import is one line if the names that the style gives are. -/
theorem newline_notMem_of_mem_linesAfter {request : CheckedRequest}
    (words : ∀ constant ∈ constants, ∀ c ∈ constant.identifier, isWordChar c = true)
    (base : '\n' ∉ style.baseClass) (property : '\n' ∉ style.listProperty)
    (member : line ∈ linesAfter style request constants) : '\n' ∉ line := by
  rcases of_mem_linesAfter member with rfl | member | rfl | rfl | member
  · exact List.not_mem_nil
  · exact Docblock.newline_notMem_of_mem_lines member
  · exact ClassBody.newline_notMem_classLine _ (newline_notMem_shortName base)
  · decide
  · exact ClassBody.newline_notMem_of_mem_bodyLines words property line member

/-- No `line` after the import of the base class imports another one. -/
theorem ofLine?_eq_none_of_mem_linesAfter {request : CheckedRequest}
    (member : line ∈ linesAfter style request constants) : ofLine? line = none := by
  refine ofLine?_eq_none ?_
  rcases of_mem_linesAfter member with rfl | member | rfl | rfl | member
  · decide
  · exact head?_ne_of_mem_docblock member
  · exact fun first => absurd (Option.some.inj first) (by decide)
  · decide
  · exact head?_ne_of_mem_bodyLines member

/-- Whatever free text stands around it, the source of a class imports the base class of its style, as long as
this class and the name of the table are one line each, so that `ofSource?` finds it. -/
theorem ofSource?_source (request : CheckedRequest)
    (words : ∀ constant ∈ constants, ∀ c ∈ constant.identifier, isWordChar c = true)
    (base : '\n' ∉ style.baseClass) (property : '\n' ∉ style.listProperty) :
    ofSource? (EnumClass.source style request constants) = some style.baseClass := by
  obtain ⟨before, lines⟩ := source_eq_import style request constants
  have whole : ∀ line ∈ ("use " ++ (style.baseClass ++ ";")) :: linesAfter style request constants,
      '\n' ∉ line := by
    refine List.forall_mem_cons.2 ⟨by simp [base], fun line member => ?_⟩
    exact newline_notMem_of_mem_linesAfter words base property member
  rw [ofSource?, lines]
  refine Text.lastRead?_unlines before whole (ofLine?_eq_some_iff.2 rfl) ?_
  exact List.forall_mem_cons.2 ⟨by decide, fun line => ofLine?_eq_none_of_mem_linesAfter⟩

/-! ## Names -/

/-- PHP takes `first` and `second` for names of the same class. -/
def SameClass (first second : Text) : Prop := first.lower = second.lower

instance (first second : Text) : Decidable (SameClass first second) :=
  inferInstanceAs (Decidable (first.lower = second.lower))

/-- The class of `id` has the name of its base class if the class id without the separators spells it in lower
case. -/
theorem sameClass_className_iff (id : ClassId) (name : Text) :
    SameClass id.className name ↔ ClassId.bare id.text = name.lower := by
  rw [SameClass, ClassId.lower_className]

/-- The class of an `accepted` request declares its class name and extends the short name of the class that it
imports. PHP takes these two names for the same exactly if the class id, without the blanks around it and
without its separators, is `baseenum`. -/
theorem sameClass_iff {request : Request} {checked : CheckedRequest}
    (accepted : request.check = .ok checked) (width : Nat) :
    let source := Generation.source ⟨checked, { indentWidth := width }⟩
    ∃ name base imported, ClassBody.heading? source = some (name, base) ∧
      Import.ofSource? source = some imported ∧ shortName imported = base ∧
      (SameClass name base ↔ ClassId.bare request.classId.trim = ("baseenum" : Text)) := by
  intro source
  obtain ⟨-, -, id, -⟩ := Request.check_eq_ok_iff.1 accepted
  obtain ⟨spelt, -⟩ := ClassId.parseUnreserved_eq_ok_iff.1 id
  let style : Style := { indentWidth := width }
  have words : ∀ constant ∈ Generation.constants ⟨checked, style⟩,
      ∀ c ∈ constant.identifier, isWordChar c = true := fun _ => ValueList.wordChars_of_mem_constants
  have base : '\n' ∉ ({} : Style).baseClass := by decide
  have property : '\n' ∉ ({} : Style).listProperty := by decide
  have lower : style.baseName.lower = ("baseenum" : Text) := by
    change ({} : Style).baseName.lower = _
    decide
  refine ⟨_, _, _, ClassBody.heading?_source checked words (newline_notMem_shortName base) property,
    ofSource?_source checked words base property, rfl, ?_⟩
  rw [sameClass_className_iff, spelt, lower]

/-- A class id that begins like the base class gives another name, in spite of a base class in the
description. -/
theorem sameClass_iff_longer :
    let request : Request :=
      { classId := " base/enum-list", values := "a", inNamespace := "app\nuse x\\BaseEnumList;"
        description := "\nuse BaseEnumList;" }
    ∃ checked, request.check = .ok checked ∧
      ∃ name base, ClassBody.heading? (Generation.source ⟨checked, {}⟩) = some (name, base) ∧
        ¬SameClass name base := by
  intro request
  have accepted : ∃ checked, request.check = .ok checked := ⟨_, rfl⟩
  obtain ⟨checked, accepted⟩ := accepted
  obtain ⟨name, base, -, read, -, -, same⟩ := sameClass_iff accepted 4
  exact ⟨checked, accepted, name, base, read, mt same.1 (by decide +kernel)⟩

/-- The class id `base-enum` is accepted, and the class that is made of it has the name of its base class. -/
theorem not_every_class_apart :
    ¬∀ (request : Request) (checked : CheckedRequest), request.check = .ok checked →
      ∀ name base, ClassBody.heading? (Generation.source ⟨checked, {}⟩) = some (name, base) →
        ¬SameClass name base := by
  intro every
  have accepted : ∃ checked,
      Request.check { classId := "base-enum", values := "a" } = .ok checked := ⟨_, rfl⟩
  obtain ⟨checked, accepted⟩ := accepted
  obtain ⟨name, base, -, read, -, -, same⟩ := sameClass_iff accepted 4
  exact every _ checked accepted name base read (same.2 (by decide +kernel))

end Import

end LabelledEnum
