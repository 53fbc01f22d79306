import LabelledEnum.Files.Fault

/-!
# Failures of output

* `Failure`: why a class cannot be placed or saved.
* `Failure.message`: what the person who asked for the class is told.
-/

namespace LabelledEnum

/-- Why a class cannot be placed or saved. -/
inductive Failure where
  /-- No directory is known for `segment`, the first one of the namespace `inNamespace`. -/
  | unknownAlias (segment inNamespace : Text)
  /-- The global namespace has no first segment for which an alias could stand. -/
  | emptyNamespace
  /-- Saving would replace another content at `path`, without permission. -/
  | wouldOverwrite (path : Text)
  /-- The file system refuses an operation on `path`, for the reason `fault`. -/
  | disk (path : Text) (fault : DiskFault)
  deriving DecidableEq, Repr

/-- What the person who asked for the class is told about the failure. -/
def Failure.message : Failure → Text
  | unknownAlias segment inNamespace =>
    "unknown path alias `@" ++ segment ++ "` for namespace `" ++ inNamespace ++ "`"
  | emptyNamespace => "namespace is empty and no output directory is configured"
  | wouldOverwrite path =>
    "'" ++ path ++ "' already exists with different content (pass --overwrite to replace it)"
  | disk path fault => "I/O error on '" ++ path ++ "': " ++ fault.message

end LabelledEnum
