import LabelledEnum.Text.Basic

/-!
# Blanks

The blank characters are those with the Unicode property `White_Space`. Trimming removes them from
the ends of a text.

* `isBlank`: membership in the table of the property.
* `Text.trimStart`, `Text.trimEnd`, `Text.trim`: removal at the left end, the right end and both.
* `Text.trim_isInfix`: the trimmed text is a part of the text.
-/

namespace LabelledEnum

/-- The ranges of code points with the property `White_Space`, each from its first to its last. -/
def blankRanges : List (Nat × Nat) :=
  [(0x09, 0x0D), (0x20, 0x20), (0x85, 0x85), (0xA0, 0xA0), (0x1680, 0x1680), (0x2000, 0x200A),
    (0x2028, 0x2029), (0x202F, 0x202F), (0x205F, 0x205F), (0x3000, 0x3000)]

/-- Whether `c` has the property `White_Space`, which `blankRanges` lists. -/
def isBlank (c : Char) : Bool := blankRanges.any fun range => range.1 ≤ c.toNat ∧ c.toNat ≤ range.2

namespace Text

/-- The `text` without the blanks at its left end. -/
def trimStart (text : Text) : Text := text.dropWhile isBlank

/-- The `text` without the blanks at its right end. -/
def trimEnd (text : Text) : Text := (text.reverse.dropWhile isBlank).reverse

/-- The `text` without the blanks at its two ends. -/
def trim (text : Text) : Text := trimEnd (trimStart text)

/-- What `trim` leaves of `text` is a part of it. -/
theorem trim_isInfix (text : Text) : text.trim <:+: text := by
  have front : trim text <+: trimStart text := by
    have back := List.dropWhile_suffix isBlank (l := (trimStart text).reverse)
    simpa [trim, trimEnd] using List.reverse_prefix.2 back
  exact front.isInfix.trans (List.dropWhile_suffix isBlank).isInfix

end Text

end LabelledEnum
