import LabelledEnum.Generation
import LabelledEnum.Proofs.Namespace
import LabelledEnum.Proofs.Source.Heading

/-!
# Where a class is placed

The path of a class continues the base directory of its layout by plain components, whatever the namespace
was spelt like, so the class stands below that directory.

* `Namespace.isComponent_of_mem_segments`: the segments of a namespace are components of a path.
* `Layout.Places`, `Layout.directory_eq_ok_iff`: the base directory of a namespace and the segments that
  become directories below it.
* `Generation.components`, `Generation.StandsBelow`: the components of the path of a class, and what it
  means that its file stands below a base directory.
* `Generation.file_standsBelow`: it does.
-/

namespace LabelledEnum

/-! ## Namespaces -/

/-- A segment that `parse` finds has none of the characters between segments in it, so no slash and no dot. -/
theorem Namespace.isComponent_of_mem_segments {text segment : Text}
    (member : segment ∈ (parse text).segments) : Path.IsComponent segment := by
  have spelt := isSegment_of_mem_segments member
  refine Path.isComponent_of_notMem spelt.ne_nil ?_ ?_
  · exact fun slash => absurd (spelt.whole _ slash) (by decide)
  · exact fun dot => absurd (spelt.whole _ dot) (by decide)

/-! ## Layouts -/

namespace Layout

/-- The layout places the namespace below a base directory, in directories that are named by segments. In
`Places layout space base segments`, these are the last two. -/
inductive Places : Layout → Namespace → Text → List Text → Prop
  /-- Below `root`, every segment names a directory. -/
  | under (root : Text) (space : Namespace) : Places (.under root) space root space.segments
  /-- The segment `first` can stand for the directory `base`, and every other one names one below it. -/
  | aliased {aliases : List Alias} {first base : Text} {rest : List Text}
      (found : aliasDirectory? aliases first = some base) :
      Places (.aliased aliases) ⟨first :: rest⟩ base rest

variable {layout : Layout} {space : Namespace} {base directory : Text} {segments : List Text}

/-- A layout gives a `directory` for `space` exactly where it places that namespace. -/
theorem directory_eq_ok_iff :
    layout.directory space = .ok directory ↔
      ∃ base segments, layout.Places space base segments ∧ Path.joinAll base segments = directory := by
  constructor
  · intro placed
    obtain ⟨listed⟩ := space
    cases layout with
    | under root =>
      cases placed
      exact ⟨root, listed, .under root ⟨listed⟩, rfl⟩
    | aliased aliases =>
      cases listed with
      | nil => cases placed
      | cons first rest =>
        -- a first segment that stands for no directory is a failure
        dsimp only [Layout.directory] at placed
        split at placed
        · cases placed
        · next base found =>
          cases placed
          exact ⟨base, rest, .aliased found, rfl⟩
  · rintro ⟨base, segments, placed, rfl⟩
    cases placed with
    | under root space => rfl
    | aliased found =>
      dsimp only [Layout.directory]
      rw [found]

/-- Below the directory `base`, a namespace has some of its segments. -/
theorem Places.subset (placed : layout.Places space base segments) : segments ⊆ space.segments := by
  cases placed with
  | under root space => exact List.Subset.refl _
  | aliased found => exact List.subset_cons_self _ _

end Layout

/-! ## Files of classes -/

namespace Generation

/-- The components by which the path of the class continues the base directory, when `segments` name directories
below it. -/
def components (generation : Generation) (segments : List Text) : List Text :=
  segments ++ generation.request.classId.subdirectories ++ [generation.request.classId.fileName]

/-- The `file` of the class stands below the directory `base`, reached from there by `components`, and is named
for the class. -/
structure StandsBelow (generation : Generation) (file : CodeFile) (base : Text)
    (components : List Text) : Prop where
  /-- The `components` are joined to `base` one after the other. -/
  path_eq : file.path = Path.joinAll base components
  /-- Each of them leads one step down. -/
  isComponent : ∀ component ∈ components, Path.IsComponent component
  /-- After some of them, the path is the beginning of the whole one, and has the names of `base` and then
  theirs. -/
  part : ∀ part, part <+: components →
    Path.joinAll base part <+: file.path ∧
      Disk.names (Path.joinAll base part) = Disk.names base ++ part
  /-- The path begins at the root only if `base` does. -/
  isAbsolute_eq : Path.isAbsolute file.path = Path.isAbsolute base
  /-- On each `disk`, what the path names is below what `base` leads to. -/
  below : ∀ (disk : Disk) (place : Place), disk.placeOf file.path = .ok place →
    ∃ top, disk.walk (disk.startOf base) (Disk.names base) = .ok top ∧
      place = components.reverse ++ top
  /-- Without its extension, the last name is the name of the class. -/
  stem_eq : (Disk.names file.path).getLast?.map Path.stem = some generation.request.classId.className
  /-- That is the class which the content declares in the line before the body. -/
  heading : ∃ before after, file.content = Text.unlines (before ++
    ("class " ++ generation.request.classId.className ++ " extends " ++ generation.style.baseName) ::
      EnumClass.openingBrace :: after)
  /-- No other class can be read from the content, whatever the free text says. -/
  declares : '\n' ∉ generation.style.baseName → '\n' ∉ generation.style.listProperty →
    ClassBody.className? file.content = some generation.request.classId.className

variable {generation : Generation} {layout : Layout} {base : Text} {segments : List Text}

/-- Where a layout places the namespace, `Generation.file` has the file at the joined components. -/
theorem file_eq_ok (placed : layout.Places generation.request.inNamespace base segments) :
    generation.file layout =
      .ok ⟨Path.joinAll base (generation.components segments), generation.source⟩ := by
  have directory := Layout.directory_eq_ok_iff.2 ⟨base, segments, placed, rfl⟩
  have path : generation.path layout =
      .ok (Path.joinAll base (generation.components segments)) := by
    rw [components, Path.joinAll_append, Path.joinAll_append, Generation.path, directory]
    rfl
  rw [Generation.file, path]
  rfl

/-- All `components` lead one step down if the segments among them do. -/
theorem isComponent_of_mem_components (generation : Generation)
    (plain : ∀ segment ∈ segments, Path.IsComponent segment) :
    ∀ component ∈ generation.components segments, Path.IsComponent component := by
  intro component member
  rcases List.mem_append.1 member with member | member
  · rcases List.mem_append.1 member with segment | subdirectory
    · exact plain component segment
    · exact ClassId.isComponent_of_mem_subdirectories subdirectory
  · obtain rfl := List.mem_singleton.1 member
    exact ClassId.isComponent_fileName _

/-- Where `layout` places the namespace that `text` spells, the class has exactly one file. It `StandsBelow` the
base directory under the remaining segments, the directories of the class id and the name of the class. -/
theorem file_standsBelow (generation : Generation) {layout : Layout} {text base : Text}
    {segments : List Text} (spelt : generation.request.inNamespace = Namespace.parse text)
    (placed : layout.Places generation.request.inNamespace base segments) :
    ∃ file, generation.file layout = .ok file ∧ file.content = generation.source ∧
      generation.StandsBelow file base (generation.components segments) := by
  have segment : ∀ segment ∈ segments, Path.IsComponent segment := by
    intro segment member
    have listed := placed.subset member
    rw [spelt] at listed
    exact Namespace.isComponent_of_mem_segments listed
  have plain := isComponent_of_mem_components generation segment
  refine ⟨_, file_eq_ok placed, rfl, {
    path_eq := rfl
    isComponent := plain
    part := ?_
    isAbsolute_eq := Path.isAbsolute_joinAll plain base
    below := ?_
    stem_eq := ?_
    heading := ?_
    declares := ?_ }⟩
  · rintro part ⟨rest, whole⟩
    rw [← whole] at plain ⊢
    -- the components after the part go on from where it leads
    rw [List.forall_mem_append] at plain
    rw [Path.joinAll_append]
    exact ⟨Path.isPrefix_joinAll plain.2 _, Path.names_joinAll plain.1 base⟩
  · intro disk place named
    exact Disk.placeOf_joinAll plain (by simp [components]) named
  · rw [Path.names_joinAll plain, components, ← List.append_assoc, List.getLast?_concat,
      Option.map_some, ClassId.stem_fileName]
  · exact ⟨_, _, EnumClass.source_eq_heading _ _ _⟩
  · intro base property
    exact ClassBody.className?_source _ (fun _ => ValueList.wordChars_of_mem_constants) base property

/-- A namespace that is spelt with dots and slashes at its ends and twice between segments does not leave
the directory of its alias. -/
theorem file_standsBelow_spelt_oddly :
    let request : CheckedRequest :=
      { classId := ⟨"shop//order-item/", by decide⟩
        values := "new"
        inNamespace := Namespace.parse "/../app\\..//\u00a0models ."
        author := ""
        description := "\x7b\nclass Other extends BaseEnum\n\x7b"
        start := 0
        sort := false }
    let generation : Generation := ⟨request, {}⟩
    let layout : Layout := .aliased [⟨"@app", "/srv/old"⟩, ⟨"app", "/srv/../app/"⟩]
    ∃ file, generation.file layout = .ok file ∧
      file.path = ("/srv/../app/models/shop/ShopOrderItem.php" : Text) ∧
      ClassBody.className? file.content = some ("ShopOrderItem" : Text) := by
  intro request generation layout
  have segments : request.inNamespace = ⟨["app", "models"]⟩ := by decide +kernel
  have placed : layout.Places generation.request.inNamespace "/srv/../app/" ["models"] := by
    change layout.Places request.inNamespace _ _
    rw [segments]
    exact .aliased (by decide)
  obtain ⟨file, made, -, below⟩ := file_standsBelow generation rfl placed
  refine ⟨file, made, below.path_eq.trans (by decide), ?_⟩
  exact (below.declares (by decide) (by decide)).trans (by decide)

end Generation

end LabelledEnum
