import LabelledEnum.Text.Basic

/-!
# Words of the command line

The words after a command are told apart by their dashes.

* `Word`, `Word.ofText`: the form of a word.
* `isNumberWord`: the words with a dash that can be the value of a number.
-/

namespace LabelledEnum.CommandLine

/-- The form of a word, before it is known which options there are. -/
inductive Word where
  /-- Two dashes alone, after which no word is an option. -/
  | endOfOptions
  /-- Two dashes and `name`, with `value` if an equals sign follows the name. -/
  | long (name : Text) (value : Option Text)
  /-- One dash and the character `first`, with whatever comes after it. -/
  | short (first : Char)
  /-- Anything else. -/
  | plain
  deriving DecidableEq, Repr

/-- What comes after the first equals sign of `text`, if there is one. -/
def afterEquals? (text : Text) : Option Text := (text.dropWhile (· ≠ '=')).tail?

/-- The form of a word, by its first characters. -/
def Word.ofText : Text → Word
  | ['-', '-'] => .endOfOptions
  | '-' :: '-' :: body => .long (body.takeWhile (· ≠ '=')) (afterEquals? body)
  | '-' :: first :: _ => .short first
  | _ => .plain

/-- Whether the text after a dash is written like a number: digits with at most one point, not at the start, and
at most one exponent mark after that, neither at the start nor at the end. `first` says whether nothing has been
read, and the marks `pointAllowed` and `markAllowed` say what is still allowed. -/
def isNumberFrom (first pointAllowed markAllowed : Bool) : Text → Bool
  | [] => true
  | c :: rest =>
    if c.isDigit then isNumberFrom false pointAllowed markAllowed rest
    else if c = '.' then pointAllowed && !first && isNumberFrom false false markAllowed rest
    else if c = 'e' ∨ c = 'E' then
      markAllowed && !first && !rest.isEmpty && isNumberFrom false false false rest
    else false

/-- Whether a word is a dash with a number after it, by `isNumberFrom`. -/
def isNumberWord : Text → Bool
  | '-' :: digits => isNumberFrom true true true digits
  | _ => false

end LabelledEnum.CommandLine
