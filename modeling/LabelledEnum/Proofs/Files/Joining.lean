import LabelledEnum.Proofs.Files.Walk

/-!
# Paths that go down from a base

A path that is continued by plain components only goes down: it begins with the path it continues, and
whatever it names is below what that path leads to.

* `Path.IsComponent`: a component that leads exactly one step down.
* `Path.names_joinAll`, `Path.isPrefix_joinAll`, `Path.isAbsolute_joinAll`: a path continued by such
  components, as a text and as a list of names.
* `Path.stem`, `Path.stem_append`: the name of a file without its extension.
* `Disk.placeOf_joinAll`: the place that it names on a disk.
-/

namespace LabelledEnum

namespace Path

/-- The text `component` leads one step down from any directory. -/
structure IsComponent (component : Text) : Prop where
  /-- It is a name at all. -/
  ne_nil : component ≠ []
  /-- It is a single name. -/
  slash_notMem : '/' ∉ component
  /-- It does not stay. -/
  ne_dot : component ≠ ['.']
  /-- It does not go up. -/
  ne_dots : component ≠ ['.', '.']

/-- A name `component` without dots and slashes in it leads one step down. -/
theorem isComponent_of_notMem {component : Text} (filled : component ≠ []) (noSlash : '/' ∉ component)
    (noDot : '.' ∉ component) : IsComponent component where
  ne_nil := filled
  slash_notMem := noSlash
  ne_dot := by
    rintro rfl
    exact noDot List.mem_cons_self
  ne_dots := by
    rintro rfl
    exact noDot List.mem_cons_self

variable {base component : Text} {components : List Text}

/-- The names before a slash and those after it follow each other, wherever `front` ends. -/
theorem names_append_cons (front back : Text) :
    Disk.names (front ++ '/' :: back) = Disk.names front ++ Disk.names back := by
  rw [Disk.names, List.splitOn_append_cons_self, List.filter_append]
  rfl

namespace IsComponent

theorem names_eq (plain : IsComponent component) : Disk.names component = [component] := by
  rw [Disk.names, List.splitOn_eq_singleton plain.slash_notMem]
  simp [plain.ne_nil]

theorem isAbsolute_eq (plain : IsComponent component) : isAbsolute component = false := by
  unfold isAbsolute
  cases component with
  | nil => rfl
  | cons c rest =>
    -- an absolute component would begin with a slash
    have other : c ≠ '/' := by
      rintro rfl
      exact plain.slash_notMem List.mem_cons_self
    simpa using other

/-- Joining `component` puts it after the path, behind a slash unless there is one or nothing before. -/
theorem join_eq (plain : IsComponent component) (base : Text) :
    join base component =
      base ++ if base = [] ∨ base.getLast? = some '/' then component else '/' :: component := by
  rw [join, plain.isAbsolute_eq, if_neg Bool.false_ne_true]
  split <;> rfl

/-- Joined to `base`, a component adds its name to those of the base. -/
theorem names_join (plain : IsComponent component) (base : Text) :
    Disk.names (join base component) = Disk.names base ++ [component] := by
  rw [plain.join_eq]
  split
  · next bare =>
    rcases bare with rfl | slashed
    · exact plain.names_eq
    · -- the slash at the end of the path is where the component begins
      obtain ⟨front, rfl⟩ := List.getLast?_eq_some_iff.1 slashed
      rw [List.append_assoc, List.singleton_append, names_append_cons, names_append_cons,
        plain.names_eq, List.append_assoc]
      rfl
  · rw [names_append_cons, plain.names_eq]

theorem isPrefix_join (plain : IsComponent component) (base : Text) : base <+: join base component := by
  rw [plain.join_eq]
  exact List.prefix_append _ _

theorem isAbsolute_join (plain : IsComponent component) (base : Text) :
    isAbsolute (join base component) = isAbsolute base := by
  rw [plain.join_eq]
  cases base with
  | nil => exact plain.isAbsolute_eq
  | cons c rest => rfl

end IsComponent

/-! ## Several components -/

/-- The names of `base` continued by components are its own names and then the components. -/
theorem names_joinAll (plain : ∀ component ∈ components, IsComponent component) (base : Text) :
    Disk.names (joinAll base components) = Disk.names base ++ components := by
  -- the base takes one component after the other, so the induction is for all bases
  induction components generalizing base with
  | nil => simp [joinAll]
  | cons first rest ih =>
    rw [List.forall_mem_cons] at plain
    have step : joinAll base (first :: rest) = joinAll (join base first) rest := rfl
    rw [step, ih plain.2, plain.1.names_join, List.append_assoc, List.singleton_append]

/-- The path `base` is the beginning of what it is continued to by components. -/
theorem isPrefix_joinAll (plain : ∀ component ∈ components, IsComponent component) (base : Text) :
    base <+: joinAll base components := by
  induction components generalizing base with
  | nil => exact List.prefix_rfl
  | cons first rest ih =>
    rw [List.forall_mem_cons] at plain
    exact (plain.1.isPrefix_join base).trans (ih plain.2 _)

theorem isAbsolute_joinAll (plain : ∀ component ∈ components, IsComponent component) (base : Text) :
    isAbsolute (joinAll base components) = isAbsolute base := by
  induction components generalizing base with
  | nil => rfl
  | cons first rest ih =>
    rw [List.forall_mem_cons] at plain
    exact (ih plain.2 _).trans (plain.1.isAbsolute_join base)

theorem joinAll_append (base : Text) (first second : List Text) :
    joinAll base (first ++ second) = joinAll (joinAll base first) second :=
  List.foldl_append

/-! ## Extensions -/

/-- The `name` without its extension: what comes before its last dot, unless nothing does. -/
def stem (name : Text) : Text :=
  match (name.reverse.dropWhile (· ≠ '.')).tail.reverse with
  | [] => name
  | front => front

/-- The name `front` is left when an extension without dots is taken away. -/
theorem stem_append {front extension : Text} (filled : front ≠ []) (noDot : '.' ∉ extension) :
    stem (front ++ '.' :: extension) = front := by
  have before : ∀ c ∈ extension.reverse, decide (c ≠ '.') = true := by
    intro c member
    rw [decide_eq_true_eq]
    rintro rfl
    exact noDot (List.mem_reverse.1 member)
  -- from the end, the dot before the extension is the first one
  have cut : (front ++ '.' :: extension).reverse.dropWhile (· ≠ '.') = '.' :: front.reverse := by
    rw [List.reverse_append, List.reverse_cons, List.append_assoc,
      List.dropWhile_append_of_pos before]
    simp
  rw [stem, cut, List.tail_cons, List.reverse_reverse]
  cases front with
  | nil => exact absurd rfl filled
  | cons c rest => rfl

end Path

namespace Disk

variable {disk : Disk} {base : Text} {components : List Text} {place goal : Place}

/-- The names in `components` lead down to the place that they spell. -/
theorem eq_of_walk_components (plain : ∀ component ∈ components, Path.IsComponent component)
    (walked : disk.walk place components = .ok goal) : goal = components.reverse ++ place := by
  induction components generalizing place with
  | nil =>
    cases walked
    rfl
  | cons first rest ih =>
    rw [List.forall_mem_cons] at plain
    rcases walk_cons_eq_ok_iff.1 walked with ⟨dot, -⟩ | ⟨dots, -⟩ | ⟨-, -, -, -, walked⟩
    · exact absurd dot plain.1.ne_dot
    · exact absurd dots plain.1.ne_dots
    · rw [ih plain.2 walked, List.reverse_cons, List.append_assoc, List.singleton_append]

/-- A path continued by `components` names the place that they spell below the place to which the path leads. -/
theorem placeOf_joinAll (plain : ∀ component ∈ components, Path.IsComponent component)
    (filled : components ≠ []) (named : disk.placeOf (Path.joinAll base components) = .ok place) :
    ∃ top, disk.walk (disk.startOf base) (names base) = .ok top ∧ place = components.reverse ++ top := by
  obtain ⟨target, located, rfl⟩ := Except.map_eq_ok_iff.1 named
  have start : disk.startOf (Path.joinAll base components) = disk.startOf base := by
    rw [startOf, startOf, Path.isAbsolute_joinAll plain]
  -- the last name is the last component, so the path ends with a name
  obtain ⟨front, last, rfl⟩ : ∃ front last, components = front ++ [last] :=
    ⟨_, _, (List.dropLast_concat_getLast filled).symm⟩
  have final := plain last (by simp)
  rw [locate_eq_ok_iff, start, Path.names_joinAll plain, ← List.append_assoc,
    List.getLast?_concat, List.dropLast_concat] at located
  rcases located with ⟨-, ⟨none, -⟩ | ⟨name, _, same, dots, -⟩ | ⟨name, parent, same, -, walked, rfl⟩⟩
  · cases none
  · cases same
    exact absurd dots (not_or.2 ⟨final.ne_dot, final.ne_dots⟩)
  · cases same
    obtain ⟨top, walked, down⟩ := walk_append_eq_ok_iff.1 walked
    refine ⟨top, walked, ?_⟩
    rw [Target.place, eq_of_walk_components (fun c member => plain c (by simp [member])) down]
    simp

end Disk

end LabelledEnum
