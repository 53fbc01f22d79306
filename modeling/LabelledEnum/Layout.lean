import LabelledEnum.Files.Failure
import LabelledEnum.Files.Path
import LabelledEnum.Namespace

/-!
# Layouts

A layout says in which directory the classes of a namespace belong.

* `Alias`: a name for a directory.
* `Layout`: all namespaces below one directory, or each below the directory of its first segment.
* `Layout.directory`: the directory of a namespace.
-/

namespace LabelledEnum

/-- A name for a directory, below which the namespaces that begin with this name have their places. -/
structure Alias where
  /-- The name, which may begin with at signs. -/
  name : Text
  /-- The directory. -/
  directory : Text
  deriving DecidableEq, Repr

/-- The first segment of a namespace for which `entry` stands: its name without the at signs before it. -/
def Alias.segment (entry : Alias) : Text := entry.name.dropWhile (· == '@')

/-- How namespaces are laid out in directories. -/
inductive Layout where
  /-- Every segment is a directory below `root`. -/
  | under (root : Text)
  /-- The first segment is one of the `aliases`, and every other one is a directory below that of the alias. -/
  | aliased (aliases : List Alias)
  deriving DecidableEq, Repr

namespace Layout

/-- The directory for which `segment` stands. Of several `aliases` with this segment the last one counts. -/
def aliasDirectory? (aliases : List Alias) (segment : Text) : Option Text :=
  (aliases.reverse.find? (·.segment = segment)).map Alias.directory

/-- The directory in which the classes of the namespace `space` belong under `layout`. -/
def directory (layout : Layout) (space : Namespace) : Except Failure Text :=
  match layout, space.segments with
  | under root, segments => .ok (Path.joinAll root segments)
  | aliased _, [] => .error .emptyNamespace
  | aliased aliases, first :: rest =>
    match aliasDirectory? aliases first with
    | none => .error (.unknownAlias first space.display)
    | some root => .ok (Path.joinAll root rest)

end Layout

end LabelledEnum
