import LabelledEnum.ClassId
import LabelledEnum.Namespace
import LabelledEnum.Reserved

/-!
# Requests

A request says which enum is wanted. It is checked once; what is generated from a checked request
cannot fail on the form of the request any more.

* `Request`: what a person fills in.
* `CheckedRequest`: a request that passed the check.
* `Request.check`: the check, which reports the first thing that is wrong.
-/

namespace LabelledEnum

/-- What a person fills in to ask for an enum. Nothing has been checked yet. -/
structure Request where
  /-- The class id. -/
  classId : Text
  /-- The value list. -/
  values : Text
  /-- The namespace of the class. -/
  inNamespace : Text := "app\\models\\enumerables"
  /-- The author named in the class. -/
  author : Text := ""
  /-- The description of the class. -/
  description : Text := "This is the CEnumerable class for"
  /-- The value of the first constant. -/
  start : Option Int := some 0
  /-- Whether the constants are sorted before they are numbered. -/
  sort : Bool := false
  deriving DecidableEq, Repr

/-- The request in which nothing has been filled in. Some fields have a default that is not blank. -/
instance : Inhabited Request := ⟨{ classId := "", values := "" }⟩

/-- A request that passed `Request.check`. -/
structure CheckedRequest where
  /-- The class id. -/
  classId : ClassId
  /-- The value list without the blanks around it. It is not empty. -/
  values : Text
  /-- The namespace of the class. -/
  inNamespace : Namespace
  /-- The author named in the class, with the blanks that were filled in. -/
  author : Text
  /-- The description of the class, without the blanks around it. -/
  description : Text
  /-- The value of the first constant. -/
  start : Int
  /-- Whether the constants are sorted before they are numbered. -/
  sort : Bool
  deriving DecidableEq

/-- The class id that `text` spells, unless its class name is reserved. -/
def ClassId.parseUnreserved (text : Text) : Except Rejection ClassId := do
  let id ← ClassId.parse text
  if isReservedClassName id.className then .error (.reservedClassName id.className) else .ok id

/-- Checks `request`. The required fields come first, in the order in which `Request` lists them, then the form
of the class id, then the class name. -/
def Request.check (request : Request) : Except Rejection CheckedRequest :=
  if request.classId.trim = [] then .error (.blank .classId)
  else if request.values.trim = [] then .error (.blank .values)
  else
    match request.start with
    | none => .error (.blank .start)
    | some start => do
      let classId ← ClassId.parseUnreserved request.classId.trim
      return {
        classId
        values := request.values.trim
        inNamespace := Namespace.parse request.inNamespace
        author := request.author
        description := request.description.trim
        start
        sort := request.sort }

end LabelledEnum
