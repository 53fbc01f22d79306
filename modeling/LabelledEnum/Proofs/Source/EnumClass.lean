import LabelledEnum.Proofs.Source.Page
import LabelledEnum.Source.EnumClass

/-!
# The lines of a class

The source of a class is a list of lines: those before its opening brace, the brace, and those of its body.

* `EnumClass.headLines`, `EnumClass.bodyLines`: the lines before the opening brace and after it.
* `EnumClass.source_eq_unlines`, `EnumClass.source_ne_nil`: the source has these lines, so it is not empty.
-/

namespace LabelledEnum.EnumClass

open Page

/-- The lines that `header` writes. -/
def headerLines (style : Style) (request : CheckedRequest) : List Text :=
  [("<?php" : Text)] ++ [[]] ++
  (if request.inNamespace.isEmpty then []
    else ["namespace " ++ request.inNamespace.display ++ ";"] ++ [[]]) ++
  ["use " ++ style.baseClass ++ ";"] ++ [[]] ++
  Docblock.lines request.author request.description

/-- The line that opens the body of the class. -/
def openingBrace : Text := "\x7b"

/-- The line that closes the body of the class. -/
def closingBrace : Text := "\x7d"

/-- The lines before the body of the class: those of `header` and the one that declares the class. -/
def headLines (style : Style) (request : CheckedRequest) : List Text :=
  headerLines style request ++
    ["class " ++ request.classId.className ++ " extends " ++ style.baseName]

/-- The lines that `declarations` write, one level in. -/
def declarationLines (width : Nat) (start : Int) (constants : List Constant) : List Text :=
  constants.map (fun constant => Text.indent width (declaration start constant)) ++
    (if constants.isEmpty then [] else [[]])

/-- The lines that `table` writes, one level in and two levels in. -/
def tableLines (width : Nat) (property : Text) (constants : List Constant) : List Text :=
  if constants.isEmpty then [Text.indent width ("public static $" ++ property ++ " = [];")]
  else
    [Text.indent width ("public static $" ++ property ++ " = [")] ++
      constants.map (fun constant => Text.indent (2 * width) (tableEntry constant)) ++
      [Text.indent width "];"]

/-- The lines between the braces of the class, those of its `constants` before those of the table. -/
def memberLines (style : Style) (start : Int) (constants : List Constant) : List Text :=
  declarationLines style.indentWidth start constants ++
    tableLines style.indentWidth style.listProperty constants

/-- The lines after `openingBrace`. -/
def bodyLines (style : Style) (start : Int) (constants : List Constant) : List Text :=
  memberLines style start constants ++ [closingBrace]

/-- A `line` of the declarations declares a constant or is empty. -/
theorem of_mem_declarationLines {width : Nat} {start : Int} {constants : List Constant} {line : Text}
    (member : line ∈ declarationLines width start constants) :
    (∃ constant ∈ constants, line = Text.indent width (declaration start constant)) ∨ line = [] := by
  rcases List.mem_append.1 member with member | member
  · obtain ⟨constant, listed, rfl⟩ := List.mem_map.1 member
    exact .inl ⟨constant, listed, rfl⟩
  · split at member
    · cases member
    · exact .inr (List.mem_singleton.1 member)

/-- A `line` of the table opens or closes the table or is the entry of a constant. -/
theorem of_mem_tableLines {width : Nat} {property : Text} {constants : List Constant} {line : Text}
    (member : line ∈ tableLines width property constants) :
    line = Text.indent width ("public static $" ++ property ++ " = [];") ∨
      line = Text.indent width ("public static $" ++ property ++ " = [") ∨
      (∃ constant ∈ constants, line = Text.indent (2 * width) (tableEntry constant)) ∨
      line = Text.indent width "];" := by
  unfold tableLines at member
  split at member
  · exact .inl (List.mem_singleton.1 member)
  · rcases List.mem_append.1 member with member | member
    · rcases List.mem_cons.1 member with opens | member
      · exact .inr (.inl opens)
      · obtain ⟨constant, listed, rfl⟩ := List.mem_map.1 member
        exact .inr (.inr (.inl ⟨constant, listed, rfl⟩))
    · exact .inr (.inr (.inr (List.mem_singleton.1 member)))

private theorem writes_outer_line {width : Nat} (content : Text) :
    Writes width 0 (line content) [content] := by
  have written := writes_line width 0 content
  rwa [Nat.zero_mul, Text.indent_zero] at written

/-- At the outermost level, `header` writes its lines. -/
theorem writes_header (style : Style) (request : CheckedRequest) {width : Nat} :
    Writes width 0 (header style request) (headerLines style request) := by
  have space : Writes width 0
      (if request.inNamespace.isEmpty then []
        else line ("namespace " ++ request.inNamespace.display ++ ";") ++ [.newline])
      (if request.inNamespace.isEmpty then []
        else ["namespace " ++ request.inNamespace.display ++ ";"] ++ [[]]) := by
    split
    · exact writes_nil
    · exact (writes_outer_line _).append writes_newline
  exact (((((writes_outer_line _).append writes_newline).append space).append
    (writes_outer_line _)).append writes_newline).append (writes_outermost width _)

private theorem writes_flatMap {Item : Type} (width level : Nat) (spell : Item → Text)
    (items : List Item) :
    Writes width level (items.flatMap fun item => line (spell item))
      (items.map fun item => Text.indent (level * width) (spell item)) := by
  have written := writes_flatMap_line width level (items.map spell)
  rwa [List.flatMap_map, List.map_map] at written

/-- One level in, the declarations of `constants` write their lines. -/
theorem writes_declarations {width : Nat} (start : Int) (constants : List Constant) :
    Writes width 1 (declarations start constants) (declarationLines width start constants) := by
  have lines := writes_flatMap width 1 (declaration start) constants
  rw [Nat.one_mul] at lines
  refine lines.append ?_
  split
  · exact writes_nil
  · exact writes_newline

/-- One level in, the table of `constants` writes its lines. -/
theorem writes_table {width : Nat} (property : Text) (constants : List Constant) :
    Writes width 1 (table property constants) (tableLines width property constants) := by
  have single : ∀ content : Text, Writes width 1 (line content) [Text.indent width content] := by
    intro content
    have written := writes_line width 1 content
    rwa [Nat.one_mul] at written
  unfold table tableLines
  split
  · exact single _
  · exact ((single _).append (writes_flatMap width 2 tableEntry constants).indented).append (single _)

/-- What `source` writes are the lines before the opening brace, the brace and the lines after it. -/
theorem source_eq_unlines (style : Style) (request : CheckedRequest) (constants : List Constant) :
    source style request constants = Text.unlines (headLines style request ++
      openingBrace :: bodyLines style request.start constants) := by
  -- the body is one level in, and everything else is at the outermost level
  have members : Writes style.indentWidth 0
      (indented (declarations request.start constants ++ table style.listProperty constants))
      (memberLines style request.start constants) :=
    ((writes_declarations request.start constants).append
      (writes_table style.listProperty constants)).indented
  have all := (writes_header style request).append
    ((((writes_outer_line ("class " ++ request.classId.className ++ " extends " ++ style.baseName)).append
      (writes_outer_line openingBrace)).append members).append (writes_outer_line closingBrace))
  refine all.text_run.trans (congrArg Text.unlines ?_)
  simp [headLines, bodyLines]

/-- There is always something in the `source` of a class. -/
theorem source_ne_nil (style : Style) (request : CheckedRequest) (constants : List Constant) :
    source style request constants ≠ [] := by
  rw [source_eq_unlines, Text.unlines_append]
  refine List.append_ne_nil_of_right_ne_nil _ ?_
  simp [Text.unlines]

end LabelledEnum.EnumClass
