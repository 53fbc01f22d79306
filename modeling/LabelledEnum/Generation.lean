import LabelledEnum.Files.CodeFile
import LabelledEnum.Layout
import LabelledEnum.Source.EnumClass
import LabelledEnum.ValueList

/-!
# Generation

From a checked request to the file that holds its class.

* `Generation`: a checked request with the style of the class.
* `Generation.constants`, `Generation.source`: the constants of the class and its text.
* `Generation.source?`: its text where a text has only so much room.
* `Generation.path`, `Generation.file`: where a layout places the class, and the file there.
* `Generation.log`: what is reported on the way.
-/

namespace LabelledEnum

/-- A checked request with the style of the class. All else about the class follows from them. -/
structure Generation where
  /-- What is generated. -/
  request : CheckedRequest
  /-- How it is written. -/
  style : Style := {}
  deriving DecidableEq

namespace Generation

/-- What the person who asked for a class is told when it has been saved. -/
def successMessage : Text := "The Enumerable class has been generated successfully."

/-- The constants of the class, as its `request` lists and sorts them. -/
def constants (generation : Generation) : List Constant :=
  ValueList.constants generation.request.values generation.request.sort

/-- The text of the class that `generation` asks for. -/
def source (generation : Generation) : Text :=
  EnumClass.source generation.style generation.request generation.constants

/-- The text of the class as `source` has it, unless it needs more bytes than `room`. -/
def source? (room : Nat) (generation : Generation) : Option Text :=
  EnumClass.source? room generation.style generation.request generation.constants

/-- The path at which the class belongs under `layout`: the directory of its namespace, the subdirectories of
its class id, the name of its file. -/
def path (generation : Generation) (layout : Layout) : Except Failure Text := do
  let directory ← layout.directory generation.request.inNamespace
  let classId := generation.request.classId
  return Path.join (Path.joinAll directory classId.subdirectories) classId.fileName

/-- The file that holds the class under `layout`: the `source` at the `path`. -/
def file (generation : Generation) (layout : Layout) : Except Failure CodeFile :=
  (generation.path layout).map (⟨·, generation.source⟩)

/-- What is reported when the constants have been read: how many there are, and then those with an issue. -/
def constantsLog (generation : Generation) : List Event :=
  .normalized generation.request.classId.text generation.constants.length generation.request.sort ::
    (suspicious generation.constants).map fun (name, issue) => .suspiciousName name issue

/-- What is reported when a path has been looked for. A failure is reported by other means. -/
def pathLog : Except Failure Text → List Event
  | .error _ => []
  | .ok path => [.resolved path]

/-- What is reported from the request to the path under `layout`. -/
def log (generation : Generation) (layout : Layout) : List Event :=
  generation.constantsLog ++ pathLog (generation.path layout)

end Generation

end LabelledEnum
