import LabelledEnum.Text.Basic

/-!
# Integers on the command line

An integer is written in decimal, with an optional sign, and has to fit in 64 bits. It is read from
left to right, and the first character at which reading fails decides the fault.

* `IntegerFault`: why a text is no integer, with its `message`.
* `readDigits`: the number that digits spell, up to a limit.
* `readSigned`, `readUnsigned`: an integer with and without a minus sign.
-/

namespace LabelledEnum.CommandLine

/-- Why a text is no integer. -/
inductive IntegerFault where
  /-- The text is empty. -/
  | empty
  /-- There is no digit where one is needed, or something else than a digit. -/
  | invalidDigit
  /-- The number is too large. -/
  | tooLarge
  /-- The number is too small. -/
  | tooSmall
  deriving DecidableEq, Repr

/-- What the person who wrote the integer is told. -/
def IntegerFault.message : IntegerFault → Text
  | empty => "cannot parse integer from empty string"
  | invalidDigit => "invalid digit found in string"
  | tooLarge => "number too large to fit in target type"
  | tooSmall => "number too small to fit in target type"

/-- The number that the digits spell after `acc`, as long as it stays within `limit`. A digit that leads out of
it is the fault `beyond`. -/
def readDigits (limit : Nat) (beyond : IntegerFault) (acc : Nat) : Text → Except IntegerFault Nat
  | [] => .ok acc
  | c :: rest =>
    if c.isDigit then
      let next := 10 * acc + (c.toNat - '0'.toNat)
      if next ≤ limit then readDigits limit beyond next rest else .error beyond
    else .error .invalidDigit

/-- The number up to `limit` that a text of digits spells. At least one digit is needed. -/
def readMagnitude (limit : Nat) (beyond : IntegerFault) : Text → Except IntegerFault Nat
  | [] => .error .invalidDigit
  | digits => readDigits limit beyond 0 digits

/-- The integer that a text spells, from `-2 ^ 63` to `2 ^ 63 - 1`. A sign may stand before the digits. -/
def readSigned : Text → Except IntegerFault Int
  | [] => .error .empty
  | '-' :: digits => (readMagnitude 0x8000000000000000 .tooSmall digits).map fun n => -(n : Int)
  | '+' :: digits => (readMagnitude 0x7fffffffffffffff .tooLarge digits).map Int.ofNat
  | digits => (readMagnitude 0x7fffffffffffffff .tooLarge digits).map Int.ofNat

/-- The integer that a text spells, from zero to `2 ^ 64 - 1`. A minus sign is no digit. -/
def readUnsigned : Text → Except IntegerFault Nat
  | [] => .error .empty
  | '+' :: digits => readMagnitude 0xffffffffffffffff .tooLarge digits
  | digits => readMagnitude 0xffffffffffffffff .tooLarge digits

end LabelledEnum.CommandLine
