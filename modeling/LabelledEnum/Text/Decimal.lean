import LabelledEnum.Text.Basic

/-!
# Decimal numbers

* `Text.ofNat`, `Text.ofInt`: a number in decimal, with the fewest digits and `-` before a negative
  one.
* `Text.alignRight`, `Text.alignLeft`: a text brought to a least width with spaces.
-/

namespace LabelledEnum.Text

/-- The natural number `n` in decimal. -/
def ofNat (n : Nat) : Text := Nat.toDigits 10 n

/-- An integer in decimal, with `-` before a negative one and what `ofNat` writes otherwise. -/
def ofInt : Int → Text
  | .ofNat n => ofNat n
  | .negSucc n => '-' :: ofNat (n + 1)

/-- The `text` with spaces before it, up to `width` characters. -/
def alignRight (width : Nat) (text : Text) : Text := text.leftpad width ' '

/-- The `text` with spaces after it, up to `width` characters. -/
def alignLeft (width : Nat) (text : Text) : Text := text.rightpad width ' '

end LabelledEnum.Text
