import LabelledEnum.Proofs.ClassId
import LabelledEnum.Proofs.Source.Reading

/-!
# Reading the name of a class back

* `EnumClass.source_eq_heading`: the line before the opening brace declares the class.
* `ClassBody.className?`: the name in the line before the last line that is an opening brace.
* `ClassBody.heading?`, `ClassBody.heading?_source`: that name and the one of the class it extends.
* `ClassBody.className?_source`: the source of a class declares the class name of its request.
-/

namespace LabelledEnum

/-- In `source`, the line before the opening brace declares the class. -/
theorem EnumClass.source_eq_heading (style : Style) (request : CheckedRequest)
    (constants : List Constant) :
    source style request constants = Text.unlines (headerLines style request ++
      ("class " ++ request.classId.className ++ " extends " ++ style.baseName) ::
        openingBrace :: bodyLines style request.start constants) := by
  rw [source_eq_unlines, headLines, List.append_assoc, List.singleton_append]

namespace ClassBody

/-- The name of the class that `source` declares, if the line before its body declares one. -/
def className? (source : Text) : Option Text := do
  let line ← Text.lineBeforeLast? EnumClass.openingBrace source
  let (name, _) ← fields? "class " " extends " "" line
  return name

/-- The line that declares the class with `id` gives the name of the class and that of its base class. -/
theorem fields?_classLine (id : ClassId) (baseName : Text) :
    fields? "class " " extends " "" ("class " ++ id.className ++ " extends " ++ baseName) =
      some (id.className, baseName) := by
  refine (fields?_eq_some_iff (by decide)).2 ⟨by simp, fun c member => ?_⟩
  rw [isWordChar, ClassId.isAlphanum_of_mem_className member, Bool.true_or]

/-- The line that declares a class is one line if `baseName` is. -/
theorem newline_notMem_classLine (id : ClassId) {baseName : Text} (single : '\n' ∉ baseName) :
    '\n' ∉ "class " ++ id.className ++ " extends " ++ baseName := by
  have name : '\n' ∉ id.className := fun member =>
    absurd (ClassId.isAlphanum_of_mem_className member) (by decide)
  simp [name, single]

/-- The names of the class that `source` declares and of the one that it extends, if the line before its body
declares one. -/
def heading? (source : Text) : Option (Text × Text) :=
  (Text.lineBeforeLast? EnumClass.openingBrace source).bind (fields? "class " " extends " "")

/-- The first of the names in the heading of `source` is the class name. -/
theorem className?_eq (source : Text) : className? source = (heading? source).map Prod.fst := by
  unfold className? heading?
  cases Text.lineBeforeLast? EnumClass.openingBrace source with
  | none => rfl
  | some line => exact (Option.map_eq_bind ..).symm

variable {style : Style} (request : CheckedRequest) {constants : List Constant}
  (words : ∀ constant ∈ constants, ∀ c ∈ constant.identifier, isWordChar c = true)
  (base : '\n' ∉ style.baseName) (property : '\n' ∉ style.listProperty)
include words base property

/-- Whatever free text stands above it, the source of a class declares the class name of its request and extends
the base class, as long as the base class and the name of the table are one line each, so that `heading?` finds
them. -/
theorem heading?_source :
    heading? (EnumClass.source style request constants) =
      some (request.classId.className, style.baseName) := by
  have whole : ∀ line ∈ EnumClass.openingBrace :: EnumClass.bodyLines style request.start constants,
      '\n' ∉ line :=
    List.forall_mem_cons.2 ⟨by decide, newline_notMem_of_mem_bodyLines words property⟩
  -- the class line is the last one before the brace that opens the body
  have line : Text.lineBeforeLast? EnumClass.openingBrace
      (EnumClass.source style request constants) =
        some ("class " ++ request.classId.className ++ " extends " ++ style.baseName) := by
    rw [EnumClass.source_eq_heading]
    exact Text.lineBeforeLast?_unlines _ (by decide) whole openingBrace_notMem_bodyLines
      (newline_notMem_classLine _ base)
  rw [heading?, line, Option.bind_some, fields?_classLine]

/-- The class that can be read from its source is the one that `request` names. -/
theorem className?_source :
    className? (EnumClass.source style request constants) = some request.classId.className := by
  rw [className?_eq, heading?_source request words base property]
  rfl

end ClassBody

end LabelledEnum
