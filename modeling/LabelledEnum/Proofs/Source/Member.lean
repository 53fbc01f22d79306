import LabelledEnum.Proofs.Identifier
import LabelledEnum.Proofs.Source.EnumClass
import LabelledEnum.Proofs.Text.Decimal
import Mathlib.Data.List.Basic

/-!
# Members of a class

Each declaration and each entry of the table has a line of its own, from which the name and what belongs
to it can be read. No other line of a class looks like one.

* `ClassBody.fields?`, `ClassBody.fields?_eq_some_iff`: a name and the text after it, in a line of a given
  form.
* `ClassBody.declared?`, `ClassBody.declared?_declaration`: the name and the value that a line declares.
* `ClassBody.labelled?`, `ClassBody.labelled?_tableEntry`: the name and the label that a line puts into
  the table.
* `ClassBody.head?_of_mem_declarationLines`, `ClassBody.head?_of_mem_tableLines`: how the lines of a class
  begin.
-/

namespace LabelledEnum.ClassBody

/-- The name and the text after it in `line`, if that has the given form: `opening`, a name of word characters,
`between`, a text, `closing`. -/
def fields? (opening between closing line : Text) : Option (Text × Text) := do
  let inner ← (← line.dropPrefix? opening).dropSuffix? closing
  let rest ← (inner.dropWhile isWordChar).dropPrefix? between
  return (inner.takeWhile isWordChar, rest)

/-- With `fields?`, a line gives a name and a text exactly when it is put together from them. -/
theorem fields?_eq_some_iff {opening between closing line name rest : Text}
    (ended : between.head?.any fun c => !isWordChar c) :
    fields? opening between closing line = some (name, rest) ↔
      line = opening ++ (name ++ (between ++ rest) ++ closing) ∧
        ∀ c ∈ name, isWordChar c = true := by
  unfold fields?
  constructor
  · intro read
    obtain ⟨tail, opened, read⟩ := Option.bind_eq_some_iff.1 read
    obtain ⟨inner, closed, read⟩ := Option.bind_eq_some_iff.1 read
    obtain ⟨last, middle, read⟩ := Option.bind_eq_some_iff.1 read
    cases read
    rw [Text.dropPrefix?_eq_some_iff] at opened middle
    rw [Text.dropSuffix?_eq_some_iff] at closed
    refine ⟨?_, List.all_eq_true.1 List.all_takeWhile⟩
    -- put together again, the parts are the line
    rw [opened, closed, ← middle, List.takeWhile_append_dropWhile]
  · rintro ⟨rfl, words⟩
    -- the name cannot run on into the text after it
    have ended : ∀ c ∈ (between ++ rest).head?, isWordChar c = false := by
      cases between with
      | nil => cases ended
      | cons c others => simpa using ended
    obtain ⟨taken, dropped⟩ := Text.span_append words ended
    rw [Text.dropPrefix?_eq_some_iff.2 rfl, Option.bind_eq_bind, Option.bind_some,
      Text.dropSuffix?_eq_some_iff.2 rfl, Option.bind_some, dropped, taken,
      Text.dropPrefix?_eq_some_iff.2 rfl]
    rfl

/-- A line with another first character than `opening` gives nothing. -/
theorem fields?_eq_none {opening between closing line : Text} (filled : opening ≠ [])
    (other : line.head? ≠ opening.head?) : fields? opening between closing line = none := by
  have unopened : line.dropPrefix? opening = none := by
    rw [Option.eq_none_iff_forall_ne_some]
    intro rest opened
    rw [Text.dropPrefix?_eq_some_iff] at opened
    obtain ⟨c, others, rfl⟩ := List.exists_cons_of_ne_nil filled
    exact other (by rw [opened]; rfl)
  rw [fields?, unopened]
  rfl

/-! ## The members of a class -/

/-- The `line` without the spaces before it. -/
def unindent (line : Text) : Text := line.dropWhile (· = ' ')

/-- Taking the `spaces` away undoes the indentation of a line that has none of its own. -/
theorem unindent_indent {spaces : Nat} {line : Text} (first : line.head? ≠ some ' ') :
    unindent (Text.indent spaces line) = line := by
  unfold unindent Text.indent
  cases line with
  | nil => rfl
  | cons c rest =>
    have other : c ≠ ' ' := fun same => first (congrArg some same)
    simp [List.dropWhile_append_of_pos, other]

/-- The name and the value that `line` declares, if it is a declaration. -/
def declared? (line : Text) : Option (Text × Int) := do
  let (name, digits) ← fields? "const " " = " ";" (unindent line)
  return (name, ← Text.readInt? digits)

/-- The name and the label that `line` puts into the table, if it is an entry. -/
def labelled? (line : Text) : Option (Text × Text) :=
  fields? "self::" " => '" "'," (unindent line)

variable {width : Nat} {start : Int} {constant : Constant}

/-- A declaration gives the name and the value of its `constant`. -/
theorem declared?_declaration (words : ∀ c ∈ constant.identifier, isWordChar c = true) :
    declared? (Text.indent width (EnumClass.declaration start constant)) =
      some (constant.name, constant.value start) := by
  have spelt : EnumClass.declaration start constant =
      "const " ++ (constant.name ++ (" = " ++ Text.ofInt (constant.value start)) ++ ";") := by
    unfold EnumClass.declaration
    simp only [List.append_assoc]
  have read : fields? "const " " = " ";" (EnumClass.declaration start constant) =
      some (constant.name, Text.ofInt (constant.value start)) :=
    (fields?_eq_some_iff (by decide)).2 ⟨spelt, fun _ => isWordChar_of_mem_constantName words⟩
  rw [declared?, unindent_indent (by rw [spelt]; simp), read]
  simp [Text.readInt?_eq_some_iff.2 rfl]

/-- An entry of the table gives the name and the label of its `constant`. -/
theorem labelled?_tableEntry (words : ∀ c ∈ constant.identifier, isWordChar c = true) :
    labelled? (Text.indent width (EnumClass.tableEntry constant)) =
      some (constant.name, constant.label) := by
  have spelt : EnumClass.tableEntry constant =
      "self::" ++ (constant.name ++ (" => '" ++ constant.label) ++ "',") := by
    unfold EnumClass.tableEntry
    simp only [List.append_assoc]
  rw [labelled?, unindent_indent (by rw [spelt]; simp)]
  exact (fields?_eq_some_iff (by decide)).2 ⟨spelt, fun _ => isWordChar_of_mem_constantName words⟩

/-- Only a line that begins with the first character of `const` declares anything. -/
theorem declared?_eq_none {line : Text} (other : (unindent line).head? ≠ some 'c') :
    declared? line = none := by
  have unread : fields? "const " " = " ";" (unindent line) = none :=
    fields?_eq_none (by decide) other
  rw [declared?, unread]
  rfl

/-- Only a line that begins with the first character of `self` labels anything. -/
theorem labelled?_eq_none {line : Text} (other : (unindent line).head? ≠ some 's') :
    labelled? line = none :=
  fields?_eq_none (by decide) other

/-- Behind its indentation, a line begins with `c` if it did without. -/
theorem head?_unindent_indent {spaces : Nat} {line : Text} {c : Char} (first : line.head? = some c)
    (other : c ≠ ' ') : (unindent (Text.indent spaces line)).head? = some c := by
  rw [unindent_indent, first]
  rw [first]
  exact fun same => other (Option.some.inj same)

/-- A `line` of the declarations begins as a declaration or is empty. -/
theorem head?_of_mem_declarationLines {constants : List Constant} {line : Text}
    (member : line ∈ EnumClass.declarationLines width start constants) :
    (unindent line).head? ∈ [some 'c', none] := by
  rcases EnumClass.of_mem_declarationLines member with ⟨constant, -, rfl⟩ | rfl
  · have first : (EnumClass.declaration start constant).head? = some 'c' := by
      unfold EnumClass.declaration
      simp
    rw [head?_unindent_indent first (by decide)]
    decide
  · decide

/-- A `line` of the table begins as the first line of the table, as an entry or as the last line. -/
theorem head?_of_mem_tableLines {property : Text} {constants : List Constant} {line : Text}
    (member : line ∈ EnumClass.tableLines width property constants) :
    (unindent line).head? ∈ [some 'p', some 's', some ']'] := by
  rcases EnumClass.of_mem_tableLines member with rfl | rfl | ⟨constant, -, rfl⟩ | rfl
  · rw [head?_unindent_indent (c := 'p') (by simp) (by decide)]
    decide
  · rw [head?_unindent_indent (c := 'p') (by simp) (by decide)]
    decide
  · have first : (EnumClass.tableEntry constant).head? = some 's' := by
      unfold EnumClass.tableEntry
      simp
    rw [head?_unindent_indent first (by decide)]
    decide
  · rw [head?_unindent_indent (c := ']') (by simp) (by decide)]
    decide

end LabelledEnum.ClassBody
