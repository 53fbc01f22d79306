import LabelledEnum.Rejection

/-!
# Class ids

A class id names a class in lower case: a letter, then letters, digits, dashes and slashes. The
slashes place the class in subdirectories, and both separators begin a new word of the class name.

* `ClassId.WellFormed`: the texts that are class ids.
* `ClassId`: a text with the proof that it is one.
* `ClassId.fault?`: the first character of a text that no class id has at its place.
* `ClassId.parse`: the class id that a text spells, or why it spells none.
* `ClassId.className`, `ClassId.subdirectories`, `ClassId.fileName`: what the class id stands for.
* `ClassId.fault?_eq_none_iff`: a non-empty text has no fault exactly when it is a class id.
-/

namespace LabelledEnum

namespace ClassId

/-- Whether a class id can begin with `c`. -/
def isInitial (c : Char) : Bool := c.isLower

/-- The characters that can stand between two words of a class id. -/
def separators : List Char := ['-', '/']

/-- Whether `c` is one of the `separators`. -/
def isSeparator (c : Char) : Bool := separators.contains c

/-- Whether `c` can stand in a class id after the first character. -/
def isFollowing (c : Char) : Bool := c.isLower || c.isDigit || isSeparator c

/-- A class id is a lower-case letter (`isInitial`) followed by lower-case letters, digits and separators
(`isFollowing`). -/
def WellFormed : Text → Prop
  | [] => False
  | c :: rest => isInitial c ∧ ∀ d ∈ rest, isFollowing d

/-- Whether a text is `WellFormed` can be decided by looking at each character once. -/
instance : (text : Text) → Decidable (WellFormed text)
  | [] => inferInstanceAs (Decidable False)
  | c :: rest => decidable_of_iff ((isInitial c && rest.all isFollowing) = true) (by simp [WellFormed])

/-- The first character that is not `isFollowing`, when `offset` bytes are before the text. -/
def faultFrom? (offset : Nat) : Text → Option Fault
  | [] => none
  | c :: rest =>
    if isFollowing c then faultFrom? (offset + c.utf8Size) rest else some ⟨offset, c.utf8Size⟩

/-- The first character that a class id cannot have at its place. Of a well-formed text there is none, as
`fault?_eq_none_iff` says. -/
def fault? : Text → Option Fault
  | [] => none
  | c :: rest => if isInitial c then faultFrom? c.utf8Size rest else some ⟨0, c.utf8Size⟩

/-- With `faultFrom?`, no fault is found in `text` exactly when every character may follow. The `offset` does
not matter. -/
theorem faultFrom?_eq_none_iff {offset : Nat} {text : Text} :
    faultFrom? offset text = none ↔ ∀ c ∈ text, isFollowing c := by
  induction text generalizing offset with
  | nil => simp [faultFrom?]
  | cons c rest ih => by_cases h : isFollowing c <;> simp [faultFrom?, h, ih]

/-- A text that begins with `c` has no fault exactly when it is `WellFormed`. -/
theorem fault?_eq_none_iff {c : Char} {rest : Text} :
    fault? (c :: rest) = none ↔ WellFormed (c :: rest) := by
  by_cases h : isInitial c <;> simp [fault?, WellFormed, h, faultFrom?_eq_none_iff]

/-- Writes a text with its first character in upper case and leaves the others as they are. -/
def capitalize : Text → Text
  | [] => []
  | c :: rest => c.toUpper :: rest

/-- The words of `text` between its `separators`, each capitalized, without the separators. -/
def camelCase (text : Text) : Text := ((text.splitOnP isSeparator).map capitalize).flatten

/-- The ending of the file that holds a class, with its dot. -/
def fileExtension : Text := "php"

end ClassId

/-- A class id. It cannot be built of a text that is not `WellFormed`. -/
structure ClassId where
  /-- The class id as written. -/
  text : Text
  /-- The text has the form of a class id. -/
  wellFormed : ClassId.WellFormed text
  deriving DecidableEq

namespace ClassId

/-- The class id that a text spells. The empty text is a blank field, and any other text that is no class id is
rejected at its first fault, the one that `fault?` finds. -/
def parse : Text → Except Rejection ClassId
  | [] => .error (.blank .classId)
  | c :: rest =>
    match h : fault? (c :: rest) with
    | some fault => .error (.illegalClassId (c :: rest) fault)
    | none => .ok ⟨c :: rest, fault?_eq_none_iff.1 h⟩

/-- The name of the class that `id` stands for, without its namespace: `order-item` names `OrderItem`. -/
def className (id : ClassId) : Text := camelCase id.text

/-- The directories, from the outside in, in which the class of `id` is placed: the parts between slashes except
the last, empty parts aside. -/
def subdirectories (id : ClassId) : List Text :=
  ((id.text.splitOn '/').filter (· ≠ [])).dropLast

/-- The name of the file that holds the class of `id`: the class name and then `fileExtension`. -/
def fileName (id : ClassId) : Text := id.className ++ "." ++ fileExtension

end ClassId

end LabelledEnum
