import LabelledEnum.Proofs.Constant
import LabelledEnum.Proofs.Result
import LabelledEnum.Proofs.Source.Member
import LabelledEnum.Proofs.ValueList

/-!
# Reading a class back

* `ClassBody.ofSource`: the body of a class, which comes after the last line that is an opening brace.
* `ClassBody.declarations`, `ClassBody.labels`: the names in the body with their values, and with their
  labels.
* `ClassBody.ofSource_source`: the lines of the body of a class.
* `ClassBody.source_reads_back`: the body of a class has exactly the constants of its value list.
-/

namespace LabelledEnum.ClassBody

/-- The names that the lines of `body` declare, with their values, in order. -/
def declarations (body : Text) : List (Text × Int) := (body.splitOn '\n').filterMap declared?

/-- The names that the lines of `body` put into the table, with their labels, in order. -/
def labels (body : Text) : List (Text × Text) := (body.splitOn '\n').filterMap labelled?

/-- The part of `source` after its last line that is an opening brace. -/
def ofSource (source : Text) : Text := Text.afterLast EnumClass.openingBrace source

variable {width : Nat} {start : Int} {constant : Constant}

/-! ## The lines of the body -/

private theorem newline_notMem_indent {spaces : Nat} {line : Text} (whole : '\n' ∉ line) :
    '\n' ∉ Text.indent spaces line := by
  unfold Text.indent
  split <;> simp [whole, List.mem_replicate]

private theorem newline_notMem_name (words : ∀ c ∈ constant.identifier, isWordChar c = true) :
    '\n' ∉ constant.name :=
  fun member => absurd (isWordChar_of_mem_constantName words member) (by decide)

theorem newline_notMem_declaration (words : ∀ c ∈ constant.identifier, isWordChar c = true) :
    '\n' ∉ EnumClass.declaration start constant := by
  have value : '\n' ∉ Text.ofInt (constant.value start) :=
    fun member => absurd (Text.mem_ofInt member) (by decide)
  unfold EnumClass.declaration
  simp [newline_notMem_name words, value]

theorem newline_notMem_tableEntry (words : ∀ c ∈ constant.identifier, isWordChar c = true) :
    '\n' ∉ EnumClass.tableEntry constant := by
  have label : '\n' ∉ constant.label :=
    fun member => absurd (isAlphanum_of_mem_labelOf words member) (by decide)
  unfold EnumClass.tableEntry
  simp [newline_notMem_name words, label]

/-- No line of the body is `EnumClass.openingBrace`, as none begins like it. -/
theorem openingBrace_notMem_bodyLines {style : Style} {constants : List Constant} :
    EnumClass.openingBrace ∉ EnumClass.bodyLines style start constants := by
  intro member
  rcases List.mem_append.1 member with member | member
  · rcases List.mem_append.1 member with member | member
    · exact absurd (head?_of_mem_declarationLines member) (by decide)
    · exact absurd (head?_of_mem_tableLines member) (by decide)
  · exact absurd (List.mem_singleton.1 member) (by decide)

variable {style : Style} {constants : List Constant}
  (words : ∀ constant ∈ constants, ∀ c ∈ constant.identifier, isWordChar c = true)
include words

/-- The lines after `EnumClass.openingBrace` have no line feeds in them. -/
theorem newline_notMem_of_mem_bodyLines (property : '\n' ∉ style.listProperty) :
    ∀ line ∈ EnumClass.bodyLines style start constants, '\n' ∉ line := by
  intro line member
  rcases List.mem_append.1 member with member | member
  · rcases List.mem_append.1 member with member | member
    · rcases EnumClass.of_mem_declarationLines member with ⟨constant, listed, rfl⟩ | rfl
      · exact newline_notMem_indent (newline_notMem_declaration (words constant listed))
      · exact List.not_mem_nil
    · rcases EnumClass.of_mem_tableLines member with rfl | rfl | ⟨constant, listed, rfl⟩ | rfl
      · exact newline_notMem_indent (by simp [property])
      · exact newline_notMem_indent (by simp [property])
      · exact newline_notMem_indent (newline_notMem_tableEntry (words constant listed))
      · exact newline_notMem_indent (by simp)
  · obtain rfl := List.mem_singleton.1 member
    decide

/-- One line of the source is `EnumClass.openingBrace`. -/
theorem openingBrace_mem_splitOn_source (property : '\n' ∉ style.listProperty)
    (request : CheckedRequest) :
    EnumClass.openingBrace ∈ (EnumClass.source style request constants).splitOn '\n' := by
  have whole : ∀ line ∈ EnumClass.openingBrace :: EnumClass.bodyLines style request.start constants,
      '\n' ∉ line :=
    List.forall_mem_cons.2 ⟨by decide, newline_notMem_of_mem_bodyLines words property⟩
  rw [EnumClass.source_eq_unlines, Text.unlines_append, Text.splitOn_unlines_append,
    Text.splitOn_unlines whole, List.cons_append]
  exact List.mem_append_right _ List.mem_cons_self

/-- After the last opening brace of the source come the lines of the body and the closing brace, which
`ofSource` finds. -/
theorem ofSource_source (property : '\n' ∉ style.listProperty) (request : CheckedRequest) :
    ofSource (EnumClass.source style request constants) =
      Text.unlines (EnumClass.bodyLines style request.start constants) := by
  have whole : ∀ line ∈ EnumClass.bodyLines style request.start constants, '\n' ∉ line :=
    newline_notMem_of_mem_bodyLines words property
  rw [ofSource, EnumClass.source_eq_unlines]
  exact Text.afterLast_unlines _ (by decide) (List.forall_mem_cons.2 ⟨by decide, whole⟩)
    openingBrace_notMem_bodyLines

/-- The lines of the body declare `constants` with their values. -/
theorem filterMap_declared?_memberLines :
    (EnumClass.memberLines style start constants).filterMap declared? =
      constants.map fun constant => (constant.name, constant.value start) := by
  have declared : (constants.map fun constant =>
        Text.indent style.indentWidth (EnumClass.declaration start constant)).filterMap declared? =
      constants.map fun constant => (constant.name, constant.value start) :=
    filterMap_map_of_some fun constant listed => declared?_declaration (words constant listed)
  have empty : (if constants.isEmpty then [] else [[]] : List Text).filterMap declared? = [] := by
    split
    · rfl
    · rw [List.filterMap_cons_none (declared?_eq_none (by decide)), List.filterMap_nil]
  -- no line of the table begins as a declaration
  have table : (EnumClass.tableLines style.indentWidth style.listProperty constants).filterMap
      declared? = [] := by
    refine List.filterMap_eq_nil_iff.2 fun line member => declared?_eq_none fun first => ?_
    exact absurd (first ▸ head?_of_mem_tableLines member) (by decide)
  rw [EnumClass.memberLines, EnumClass.declarationLines, List.filterMap_append,
    List.filterMap_append, declared, empty, table, List.append_nil, List.append_nil]

/-- The lines of the body put `constants` with their labels into the table. -/
theorem filterMap_labelled?_memberLines :
    (EnumClass.memberLines style start constants).filterMap labelled? =
      constants.map fun constant => (constant.name, constant.label) := by
  -- no line of the declarations begins as an entry
  have declarations : (EnumClass.declarationLines style.indentWidth start constants).filterMap
      labelled? = [] := by
    refine List.filterMap_eq_nil_iff.2 fun line member => labelled?_eq_none fun first => ?_
    exact absurd (first ▸ head?_of_mem_declarationLines member) (by decide)
  rw [EnumClass.memberLines, List.filterMap_append, declarations, List.nil_append]
  -- the lines around the entries begin with other characters than an entry
  have around : ∀ {line : Text} {c : Char}, line.head? = some c → c ≠ ' ' → c ≠ 's' →
      labelled? (Text.indent style.indentWidth line) = none := by
    intro line c first spaced other
    refine labelled?_eq_none ?_
    rw [head?_unindent_indent first spaced]
    exact fun same => other (Option.some.inj same)
  unfold EnumClass.tableLines
  split
  · next none =>
    rw [List.isEmpty_iff.1 none]
    exact List.filterMap_cons_none (around (c := 'p') (by simp) (by decide) (by decide))
  · have opens : labelled? (Text.indent style.indentWidth
        ("public static $" ++ style.listProperty ++ " = [")) = none :=
      around (c := 'p') (by simp) (by decide) (by decide)
    have closes : labelled? (Text.indent style.indentWidth "];") = none :=
      around (c := ']') (by simp) (by decide) (by decide)
    have labelled : (constants.map fun constant =>
          Text.indent (2 * style.indentWidth) (EnumClass.tableEntry constant)).filterMap labelled? =
        constants.map fun constant => (constant.name, constant.label) :=
      filterMap_map_of_some fun constant listed => labelled?_tableEntry (words constant listed)
    rw [List.filterMap_append, List.filterMap_append, labelled, List.filterMap_cons_none opens,
      List.filterMap_cons_none closes]
    simp

/-- Reading the body of a class gives its `constants` with their values, and with their labels. -/
theorem read_ofSource_source (property : '\n' ∉ style.listProperty) (request : CheckedRequest) :
    declarations (ofSource (EnumClass.source style request constants)) =
        constants.map (fun constant => (constant.name, constant.value request.start)) ∧
      labels (ofSource (EnumClass.source style request constants)) =
        constants.map fun constant => (constant.name, constant.label) := by
  have cut : (ofSource (EnumClass.source style request constants)).splitOn '\n' =
      EnumClass.memberLines style request.start constants ++ [EnumClass.closingBrace, []] := by
    rw [ofSource_source words property,
      Text.splitOn_unlines (newline_notMem_of_mem_bodyLines words property), EnumClass.bodyLines,
      List.append_assoc]
    rfl
  -- after the members come the closing brace and what follows the last line feed
  have declaresNothing : [EnumClass.closingBrace, []].filterMap declared? = [] := by
    rw [List.filterMap_cons_none (declared?_eq_none (by decide)),
      List.filterMap_cons_none (declared?_eq_none (by decide)), List.filterMap_nil]
  have labelsNothing : [EnumClass.closingBrace, []].filterMap labelled? = [] := by
    rw [List.filterMap_cons_none (labelled?_eq_none (by decide)),
      List.filterMap_cons_none (labelled?_eq_none (by decide)), List.filterMap_nil]
  constructor
  · rw [declarations, cut, List.filterMap_append, filterMap_declared?_memberLines words,
      declaresNothing, List.append_nil]
  · rw [labels, cut, List.filterMap_append, filterMap_labelled?_memberLines words, labelsNothing,
      List.append_nil]

omit words

/-- The names that `identifiers` give to constants, with values that count up from `start`. -/
def namedValues (start : Int) (identifiers : List Text) : List (Text × Int) :=
  identifiers.mapIdx fun position identifier => (constantName identifier, start + position)

/-- The names that `identifiers` give to constants, with their labels. -/
def namedLabels (identifiers : List Text) : List (Text × Text) :=
  identifiers.map fun identifier => (constantName identifier, labelOf identifier)

/-- Reading the body of a class for the value list `raw` gives what the identifiers of the list stand for. -/
theorem read_source_constants (property : '\n' ∉ style.listProperty) (request : CheckedRequest)
    (raw : Text) (sort : Bool) :
    declarations (ofSource (EnumClass.source style request (ValueList.constants raw sort))) =
        namedValues request.start (ValueList.identifiers raw sort) ∧
      labels (ofSource (EnumClass.source style request (ValueList.constants raw sort))) =
        namedLabels (ValueList.identifiers raw sort) := by
  obtain ⟨declared, labelled⟩ :=
    read_ofSource_source (fun _ => ValueList.wordChars_of_mem_constants) property request
  rw [declared, labelled]
  constructor
  · refine List.ext_getElem (by simp [namedValues, ValueList.constants, enumerate]) ?_
    intro position _ _
    simp [namedValues, ValueList.constants, enumerate, Constant.name, Constant.value]
  · rw [← map_identifier_enumerate (ValueList.identifiers raw sort), namedLabels, List.map_map]
    rfl

/-- The body of a class, which comes after an opening brace, reads back to its constants, whatever the rest of
`request` and `style` say, as long as the name of the table is one line: it declares each name with its value
and gives each name its label, in order, and no name comes twice. Two classes with the same source therefore
have the same names, values and labels. -/
theorem source_reads_back (style : Style) (request : CheckedRequest) (raw : Text) (sort : Bool)
    (property : '\n' ∉ style.listProperty) :
    EnumClass.openingBrace ∈
        (EnumClass.source style request (ValueList.constants raw sort)).splitOn '\n' ∧
      declarations (ofSource (EnumClass.source style request (ValueList.constants raw sort))) =
        namedValues request.start (ValueList.identifiers raw sort) ∧
      labels (ofSource (EnumClass.source style request (ValueList.constants raw sort))) =
        namedLabels (ValueList.identifiers raw sort) ∧
      ((ValueList.identifiers raw sort).map constantName).Nodup ∧
      ∀ (style' : Style) (request' : CheckedRequest) (raw' : Text) (sort' : Bool),
        '\n' ∉ style'.listProperty →
        EnumClass.source style' request' (ValueList.constants raw' sort') =
          EnumClass.source style request (ValueList.constants raw sort) →
        namedValues request'.start (ValueList.identifiers raw' sort') =
            namedValues request.start (ValueList.identifiers raw sort) ∧
          namedLabels (ValueList.identifiers raw' sort') =
            namedLabels (ValueList.identifiers raw sort) := by
  have opened : EnumClass.openingBrace ∈
      (EnumClass.source style request (ValueList.constants raw sort)).splitOn '\n' :=
    openingBrace_mem_splitOn_source (fun _ => ValueList.wordChars_of_mem_constants) property request
  obtain ⟨declared, labelled⟩ := read_source_constants property request raw sort
  refine ⟨opened, declared, labelled, ValueList.nodup_map_constantName raw sort, ?_⟩
  intro style' request' raw' sort' property' same
  obtain ⟨declared', labelled'⟩ := read_source_constants property' request' raw' sort'
  rw [same] at declared' labelled'
  exact ⟨declared'.symm.trans declared, labelled'.symm.trans labelled⟩

/-- Free text that looks like a class adds no constant, and values go on after the largest machine
integer. -/
theorem source_reads_back_hostile :
    let request : CheckedRequest :=
      { classId := ⟨"plan", by decide⟩
        values := "Free trial, PAID"
        inNamespace := ⟨["app", "a\n\x7b\nconst X = 1;"]⟩
        author := "*/\n\x7b\n    const PAID = 7;"
        description := "\x7b\nself::PAID => 'Gratis',"
        start := 9223372036854775807
        sort := false }
    '\n' ∉ ({ indentWidth := 0 } : Style).listProperty ∧
      declarations (ofSource (EnumClass.source { indentWidth := 0 } request
        (ValueList.constants "Free trial, PAID, free-trial" false))) =
        [("FREE_TRIAL".toList, 9223372036854775807), ("PAID".toList, 9223372036854775808)] ∧
      labels (ofSource (EnumClass.source { indentWidth := 0 } request
        (ValueList.constants "Free trial, PAID, free-trial" false))) =
        [("FREE_TRIAL".toList, "Free Trial".toList), ("PAID".toList, "PAID".toList)] := by
  intro request
  obtain ⟨-, declared, labelled, -, -⟩ := source_reads_back { indentWidth := 0 } request
    "Free trial, PAID, free-trial" false (by decide)
  refine ⟨by decide, declared.trans ?_, labelled.trans ?_⟩
  · decide
  · decide

end LabelledEnum.ClassBody
