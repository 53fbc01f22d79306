import LabelledEnum.Constant
import LabelledEnum.Text.Decimal

/-!
# Constants as JSON

An array with one object for each constant. Objects and arrays are written over several lines, two
spaces deeper for each level, and an object's keys are in alphabetical order.

* `Listing.escapeChar`, `Listing.quote`: a text as a JSON string.
* `Listing.Datum`: the value of a key, a number or a string.
* `Listing.json`: the text of the array.
-/

namespace LabelledEnum.Listing

/-- The four hexadecimal digits of a code point `n` below 256, in lower case. -/
def hexDigits (n : Nat) : Text := (Nat.toDigits 16 n).leftpad 4 '0'

/-- The character `c` as it stands in a JSON string. Only the quote, the backslash and the characters below the
space have to be escaped. -/
def escapeChar (c : Char) : Text :=
  if c = '"' then ['\\', '"']
  else if c = '\\' then ['\\', '\\']
  else if c = '\x08' then ['\\', 'b']
  else if c = '\x0c' then ['\\', 'f']
  else if c = '\n' then ['\\', 'n']
  else if c = '\r' then ['\\', 'r']
  else if c = '\t' then ['\\', 't']
  else if c < ' ' then '\\' :: 'u' :: hexDigits c.toNat
  else [c]

/-- The `text` as a JSON string, each character by `escapeChar`. -/
def quote (text : Text) : Text := '"' :: (text.flatMap escapeChar ++ ['"'])

/-- The value of a key. -/
inductive Datum where
  /-- The integer `n`, written as a number. -/
  | number (n : Int)
  /-- The text `text`, written as a string. -/
  | string (text : Text)
  deriving DecidableEq, Repr

/-- The text of a value, as `quote` and `Text.ofInt` write it. -/
def Datum.text : Datum → Text
  | number n => Text.ofInt n
  | string text => quote text

/-- Whether `n` fits in 64 bits with sign. -/
def fitsInt64 (n : Int) : Bool := -0x8000000000000000 ≤ n ∧ n ≤ 0x7fffffffffffffff

/-- The value `n` of a constant: a number while `fitsInt64` holds, a string of its digits beyond. -/
def valueDatum (n : Int) : Datum := if fitsInt64 n then .number n else .string (Text.ofInt n)

/-- The keys of `constant` with their values, in alphabetical order. The enum has the first value `start`. -/
def entries (start : Int) (constant : Constant) : List (Text × Datum) :=
  [("identifier", .string constant.identifier),
    ("label", .string constant.label),
    ("name", .string constant.name),
    ("value", valueDatum (constant.value start))]

/-- One key of an object with its value, as `entry` pairs them. -/
def entryText (entry : Text × Datum) : Text :=
  "    " ++ quote entry.1 ++ ": " ++ entry.2.text

/-- The object of `constant` in an enum whose first value is `start`. -/
def object (start : Int) (constant : Constant) : Text :=
  "  \x7b\n" ++ List.intercalate (",\n" : Text) ((entries start constant).map entryText) ++ "\n  \x7d"

/-- The array of the `constants` of an enum whose first value is `start`. -/
def json (start : Int) (constants : List Constant) : Text :=
  if constants.isEmpty then "[]"
  else "[\n" ++ List.intercalate (",\n" : Text) (constants.map (object start)) ++ "\n]"

end LabelledEnum.Listing
