import LabelledEnum.Text.Basic

/-!
# Rejections

Why a request for an enum is turned down before anything is generated.

* `Field`: the fields that a request cannot leave blank.
* `Fault`: the place of a character that a class id cannot hold.
* `Rejection`: the reasons, with their `message`, `code` and `help`.
-/

namespace LabelledEnum

/-- A field that a request cannot leave blank. -/
inductive Field where
  /-- The class id. -/
  | classId
  /-- The value list. -/
  | values
  /-- The value of the first constant. -/
  | start
  deriving DecidableEq, Repr

/-- The name of the field in a `message`. -/
def Field.title : Field → Text
  | .classId => "Enumerable Class"
  | .values => "All const values"
  | .start => "Start"

/-- The place of a faulty character, counted in bytes of UTF-8. -/
structure Fault where
  /-- The number of bytes before the character. -/
  offset : Nat
  /-- The number of bytes of the character. -/
  length : Nat
  deriving DecidableEq, Repr

/-- Why a request is turned down. -/
inductive Rejection where
  /-- The required `field` holds nothing. -/
  | blank (field : Field)
  /-- The text `classId` holds a character that no class id can hold there: the one at `fault`. -/
  | illegalClassId (classId : Text) (fault : Fault)
  /-- The name `className` that the class would have is a reserved word. -/
  | reservedClassName (className : Text)
  deriving DecidableEq, Repr

namespace Rejection

/-- What the person who made the request is told about the rejection. -/
def message : Rejection → Text
  | blank field => field.title ++ " cannot be blank."
  | illegalClassId _ _ => "Only a-z, 0-9, dashes (-) and slashes (/) are allowed."
  | reservedClassName className =>
    "`" ++ className ++ "` is a reserved word and cannot be used as a class name"

/-- The stable name of the reason. -/
def code : Rejection → Text
  | blank _ => "enumgen::missing_field"
  | illegalClassId _ _ => "enumgen::invalid_class_id"
  | reservedClassName _ => "enumgen::reserved_class_name"

/-- What to do about the rejection, where its `message` does not make that obvious. -/
def help? : Rejection → Option Text
  | blank _ => none
  | illegalClassId _ _ =>
    some "class ids are lowercase, e.g. `order-item` generates `OrderItem.php`"
  | reservedClassName _ => some "pick a different class id"

/-- The note that stands under the faulty character. -/
def faultNote : Text := "not allowed here"

end Rejection

end LabelledEnum
