import LabelledEnum.Reserved
import LabelledEnum.Text.Decimal

/-!
# Events

What the program reports about its work, apart from its results.

* `Operation`: what saving a file comes to.
* `Event`: what is reported, with its `level`, `message` and `fields`.
-/

namespace LabelledEnum

/-- What saving a file comes to, or would come to. -/
inductive Operation where
  /-- There is no such file yet. -/
  | create
  /-- There is such a file with another content. -/
  | overwrite
  /-- There is such a file with the same content. -/
  | unchanged
  deriving DecidableEq, Repr

/-- The word for the operation, as `Event.fields` and the command line show it. -/
def Operation.word : Operation → Text
  | create => "create"
  | overwrite => "overwrite"
  | unchanged => "unchanged"

/-- How important an event is. -/
inductive Level where
  /-- A step of the work. -/
  | debug
  /-- A result of the work. -/
  | info
  /-- Something that may be a mistake. -/
  | warn
  deriving DecidableEq, Repr

/-- What is reported while a class is made. -/
inductive Event where
  /-- The value list of the class with this `classId` has been read and holds `count` constants. -/
  | normalized (classId : Text) (count : Nat) (sort : Bool)
  /-- PHP would reject the constant name `name`, for the reason `issue`. -/
  | suspiciousName (name : Text) (issue : Issue)
  /-- The file of the class has its place at `path`. -/
  | resolved (path : Text)
  /-- The `path` of the class begins at the root of the file system. -/
  | absolutePath (path : Text)
  /-- The class has been written to `path`, which is what `operation` came to. -/
  | wrote (path : Text) (operation : Operation)
  /-- The class was there already at `path`. -/
  | skipped (path : Text)
  deriving DecidableEq, Repr

namespace Event

/-- How important the event is. Only what may be a mistake has the level `warn`. -/
def level : Event → Level
  | normalized _ _ _ => .debug
  | suspiciousName _ _ => .warn
  | resolved _ => .debug
  | absolutePath _ => .warn
  | wrote _ _ => .info
  | skipped _ => .debug

/-- The event in words. -/
def message : Event → Text
  | normalized _ _ _ => "normalized constant values"
  | suspiciousName _ .leadingDigit =>
    "constant name starts with a digit and is not a valid PHP identifier"
  | suspiciousName _ .reserved => "constant name is reserved in PHP"
  | resolved _ => "resolved output path"
  | absolutePath path =>
    "Using absolute output path: " ++ path ++ ". Consider using a relative path."
  | wrote _ _ => "wrote generated class"
  | skipped _ => "content unchanged, skipping write"

/-- The particulars of the event, each with its name. -/
def fields : Event → List (Text × Text)
  | normalized classId count sort =>
    [("class", classId), ("count", Text.ofNat count), ("sort", if sort then "true" else "false")]
  | suspiciousName name _ => [("constant", name)]
  | resolved path => [("path", path)]
  | absolutePath _ => []
  | wrote path operation => [("path", path), ("operation", operation.word)]
  | skipped path => [("path", path)]

end Event

end LabelledEnum
