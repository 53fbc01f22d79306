import LabelledEnum.Text.Basic

/-!
# Identifiers

An identifier is a text of word characters: ASCII letters, digits and `_`. A constant of an enum has
three spellings, all derived from its identifier.

* `isWordChar`: the characters of an identifier.
* `sanitize`: the identifier that a free text stands for (`a-b c` stands for `a_b_c`).
* `constantName`: the name of the declared constant (`free_trial` becomes `FREE_TRIAL`).
* `labelOf`: the label shown to people (`free_trial` becomes `Free Trial`).
-/

namespace LabelledEnum

/-- Whether `c` is a word character: an ASCII letter, an ASCII digit or `_`. -/
def isWordChar (c : Char) : Bool := c.isAlphanum || c == '_'

/-- Replaces runs of other characters by one `_` each. `inRun` says whether the character before was
one of a run, so that its `_` is already written. -/
def sanitizeFrom (inRun : Bool) : Text → Text
  | [] => []
  | c :: rest =>
    if isWordChar c then c :: sanitizeFrom false rest
    else if inRun then sanitizeFrom true rest
    else '_' :: sanitizeFrom true rest

/-- The `text` with every longest run of characters that are not word characters replaced by one `_`. -/
def sanitize (text : Text) : Text := sanitizeFrom false text

/-- The name of the constant with this `identifier`, which differs from it in case alone. -/
def constantName (identifier : Text) : Text := identifier.upper

/-- Writes a space for each `_` and the first character of each word in upper case. `wordStart` says
whether the next character is the first of its word. -/
def labelFrom (wordStart : Bool) : Text → Text
  | [] => []
  | c :: rest =>
    if c = '_' then ' ' :: labelFrom true rest
    else if wordStart then c.toUpper :: labelFrom false rest
    else c :: labelFrom false rest

/-- The label of the constant with this `identifier`: words are separated by spaces and begin in upper case. -/
def labelOf (identifier : Text) : Text := labelFrom true identifier

end LabelledEnum
