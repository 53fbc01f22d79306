import LabelledEnum.Listing.Json
import LabelledEnum.Proofs.Text.Decimal

/-!
# Tokens of JSON

A JSON text is cut into tokens from left to right, one character at a time. Layout does not matter: spaces
between tokens leave nothing behind.

* `Json.Token`, `Json.Position`, `Json.step?`, `Json.scan?`: the tokens of a text.
* `Json.scanFrom?_escapeChar`: what one escaped character does.
* `Json.Scans`, `Json.ScansBefore`: a part of a text has these tokens.
* `Json.scans_of_scan?`, `Json.scans_quote`, `Json.scansBefore_datum`, `Json.scansBefore_intercalate`: the
  tokens of marks, strings, numbers and lists.
-/

namespace LabelledEnum.Json

open Listing

/-! ## Tokens -/

/-- A token of JSON, as far as arrays of flat objects have them. -/
inductive Token where
  /-- The beginning of an array. -/
  | openArray
  /-- The end of an array. -/
  | closeArray
  /-- The beginning of an object. -/
  | openObject
  /-- The end of an object. -/
  | closeObject
  /-- What stands between two items. -/
  | comma
  /-- What stands between a key and its value. -/
  | colon
  /-- A number or a string, which stands for `datum`. -/
  | datum (datum : Datum)
  deriving DecidableEq, Repr

/-- Where a reader stands in a text, with what it has read of the token that has not ended. -/
inductive Position where
  /-- Between two tokens. -/
  | between
  /-- In a number, of which the characters `digits` have been read. -/
  | number (digits : Text)
  /-- In a string, of which the text `content` has been read. -/
  | string (content : Text)
  /-- After the backslash of an escape in a string, of which `content` has been read. -/
  | escape (content : Text)
  /-- In a code point in a string. After the next digit as many digits are `left`, and the digits so far spell
  the number `spelt`. -/
  | code (content : Text) (left : Nat) (spelt : Nat)
  deriving DecidableEq, Repr

/-- Whether `c` can stand between two tokens without meaning anything. -/
def isSpace (c : Char) : Bool := [' ', '\t', '\n', '\r'].contains c

/-- Whether `c` can stand in an integer. -/
def isNumeric (c : Char) : Bool := c.isDigit || c == '-'

/-- The token that is this character alone. -/
def mark? : Char → Option Token
  | '[' => some .openArray
  | ']' => some .closeArray
  | '\x7b' => some .openObject
  | '\x7d' => some .closeObject
  | ',' => some .comma
  | ':' => some .colon
  | _ => none

/-- The character that is escaped with this one after the backslash. The letter `u` is left to
`Position.code`. -/
def escaped? : Char → Option Char
  | '"' => some '"'
  | '\\' => some '\\'
  | '/' => some '/'
  | 'b' => some '\x08'
  | 'f' => some '\x0c'
  | 'n' => some '\n'
  | 'r' => some '\r'
  | 't' => some '\t'
  | _ => none

/-- The value of the hexadecimal digit `c`. -/
def hexValue? (c : Char) : Option Nat :=
  if c.isDigit then some (c.toNat - '0'.toNat)
  else if 'a' ≤ c ∧ c ≤ 'f' then some (c.toNat - 'a'.toNat + 10)
  else if 'A' ≤ c ∧ c ≤ 'F' then some (c.toNat - 'A'.toNat + 10)
  else none

/-- The character with the code point `n`, if there is one. -/
def charOf? (n : Nat) : Option Char := if n.isValidChar then some (Char.ofNat n) else none

/-- What one character does: the tokens that end with it or before it, and the position after it. -/
abbrev Step := List Token × Position

/-- What the character `c` does between two tokens. -/
def begin? (c : Char) : Option Step :=
  if isSpace c then some ([], .between)
  else if c = '"' then some ([], .string [])
  else if isNumeric c then some ([], .number [c])
  else (mark? c).map fun token => ([token], .between)

/-- The number that ends after `digits`, if they make one. -/
def endNumber? (digits : Text) : Option Token :=
  (Text.readInt? digits).map fun n => .datum (.number n)

/-- What a character does at a position. Control characters cannot stand in a string. -/
def step? : Position → Char → Option Step
  | .between, c => begin? c
  | .number digits, c =>
    if isNumeric c then some ([], .number (digits ++ [c]))
    else do
      let token ← endNumber? digits
      let (tokens, position) ← begin? c
      return (token :: tokens, position)
  | .string content, c =>
    if c = '"' then some ([.datum (.string content)], .between)
    else if c = '\\' then some ([], .escape content)
    else if c < ' ' then none
    else some ([], .string (content ++ [c]))
  | .escape content, c =>
    if c = 'u' then some ([], .code content 3 0)
    else (escaped? c).map fun d => ([], .string (content ++ [d]))
  | .code content left spelt, c => do
    let digit ← hexValue? c
    match left with
    | 0 => return ([], .string (content ++ [← charOf? (16 * spelt + digit)]))
    | left + 1 => return ([], .code content left (16 * spelt + digit))

/-- The tokens that end with the text, if it can end at this position. A string needs its closing quote. -/
def end? : Position → Option (List Token)
  | .between => some []
  | .number digits => (endNumber? digits).map ([·])
  | _ => none

/-- The tokens of the text that is left at a position, by `step?` for each character. -/
def scanFrom? : Position → Text → Option (List Token)
  | position, [] => end? position
  | position, c :: rest =>
    (step? position c).bind fun (tokens, next) => (scanFrom? next rest).map (tokens ++ ·)

/-- The tokens of `text`. -/
def scan? (text : Text) : Option (List Token) := scanFrom? .between text

/-! ## The tokens of a datum -/

section

variable {content rest : Text} {position next : Position} {c : Char}

/-- A character `c` that ends no token changes the position alone. -/
theorem scanFrom?_cons_of_step (stepped : step? position c = some ([], next)) (rest : Text) :
    scanFrom? position (c :: rest) = scanFrom? next rest := by
  rw [scanFrom?, stepped, Option.bind_some]
  exact Option.map_id_apply

/-- The character `c` stands in a string as it is, or after a backslash, or as its code point. -/
theorem escapeChar_cases (c : Char) :
    (∃ d, escapeChar c = ['\\', d] ∧ d ≠ 'u' ∧ escaped? d = some c) ∨
      (escapeChar c = '\\' :: 'u' :: hexDigits c.toNat ∧ c < ' ') ∨
      (escapeChar c = [c] ∧ c ≠ '"' ∧ c ≠ '\\' ∧ ¬c < ' ') := by
  by_cases named : c ∈ ['"', '\\', '\x08', '\x0c', '\n', '\r', '\t']
  · left
    simp only [List.mem_cons, List.not_mem_nil, or_false] at named
    rcases named with rfl | rfl | rfl | rfl | rfl | rfl | rfl
    · exact ⟨'"', rfl, by decide, rfl⟩
    · exact ⟨'\\', rfl, by decide, rfl⟩
    · exact ⟨'b', rfl, by decide, rfl⟩
    · exact ⟨'f', rfl, by decide, rfl⟩
    · exact ⟨'n', rfl, by decide, rfl⟩
    · exact ⟨'r', rfl, by decide, rfl⟩
    · exact ⟨'t', rfl, by decide, rfl⟩
  · right
    simp only [List.mem_cons, List.not_mem_nil, or_false, not_or] at named
    by_cases control : c < ' '
    · exact .inl ⟨by simp [escapeChar, named, control], control⟩
    · exact .inr ⟨by simp [escapeChar, named, control], named.1, named.2.1, control⟩

private theorem hexValue?_digitChar : ∀ n < 16, hexValue? n.digitChar = some n := by decide

/-- A control character has two hexadecimal digits, with two zeros before them. -/
private theorem hexDigits_eq : ∀ code < 0x20,
    hexDigits code = ['0', '0', (code / 16).digitChar, (code % 16).digitChar] := by
  decide

private theorem scanFrom?_hexDigits (control : c < ' ') (rest : Text) :
    scanFrom? (.code content 3 0) (hexDigits c.toNat ++ rest) =
      scanFrom? (.string (content ++ [c])) rest := by
  have small : c.toNat < 0x20 := control
  have high : hexValue? (c.toNat / 16).digitChar = some (c.toNat / 16) :=
    hexValue?_digitChar _ (Nat.div_lt_of_lt_mul (Nat.lt_trans small (by decide)))
  have low : hexValue? (c.toNat % 16).digitChar = some (c.toNat % 16) :=
    hexValue?_digitChar _ (Nat.mod_lt _ (by decide))
  have spelt : charOf? (16 * (c.toNat / 16) + c.toNat % 16) = some c := by
    have valid : c.toNat.isValidChar := c.valid
    rw [Nat.div_add_mod, charOf?, if_pos valid, Char.ofNat_toNat]
  rw [hexDigits_eq _ small]
  simp only [List.cons_append, List.nil_append]
  rw [scanFrom?_cons_of_step rfl, scanFrom?_cons_of_step rfl,
    scanFrom?_cons_of_step (by rw [step?, high]; rfl)]
  exact scanFrom?_cons_of_step (by rw [step?, low]; simp [spelt]) rest

/-- A character `c` of a string is read as itself. -/
theorem scanFrom?_escapeChar (c : Char) (rest : Text) :
    scanFrom? (.string content) (escapeChar c ++ rest) =
      scanFrom? (.string (content ++ [c])) rest := by
  rcases escapeChar_cases c with
    ⟨d, spelt, other, escaped⟩ | ⟨spelt, control⟩ | ⟨spelt, quote, backslash, control⟩
  · rw [spelt, List.cons_append, scanFrom?_cons_of_step rfl, List.singleton_append]
    exact scanFrom?_cons_of_step (by simp [step?, other, escaped]) rest
  · rw [spelt, List.cons_append, scanFrom?_cons_of_step rfl, List.cons_append,
      scanFrom?_cons_of_step rfl, scanFrom?_hexDigits control]
  · rw [spelt, List.singleton_append]
    exact scanFrom?_cons_of_step (by simp [step?, quote, backslash, control]) rest

/-- Up to its closing quote, a string is read as the `text` it quotes. -/
private theorem scanFrom?_flatMap_escapeChar (text : Text) (rest : Text) :
    scanFrom? (.string content) (text.flatMap escapeChar ++ '"' :: rest) =
      (scanFrom? .between rest).map (.datum (.string (content ++ text)) :: ·) := by
  induction text generalizing content with
  | nil =>
    have closes : step? (.string content) '"' = some ([.datum (.string content)], .between) := rfl
    rw [List.flatMap_nil, List.nil_append, scanFrom?, closes, List.append_nil]
    rfl
  | cons c others ih =>
    rw [List.flatMap_cons, List.append_assoc, scanFrom?_escapeChar, ih, List.append_assoc,
      List.singleton_append]

/-- The characters of a number do not end it, so they are read behind `digits`. -/
private theorem scanFrom?_number (digits : Text) {more : Text}
    (numeric : ∀ c ∈ more, isNumeric c = true) (rest : Text) :
    scanFrom? (.number digits) (more ++ rest) = scanFrom? (.number (digits ++ more)) rest := by
  induction more generalizing digits with
  | nil => rw [List.append_nil, List.nil_append]
  | cons c others ih =>
    rw [List.forall_mem_cons] at numeric
    have goesOn : step? (.number digits) c = some ([], .number (digits ++ [c])) :=
      if_pos numeric.1
    rw [List.cons_append, scanFrom?_cons_of_step goesOn, ih _ numeric.2, List.append_assoc,
      List.singleton_append]

theorem begin?_of_isNumeric (numeric : isNumeric c = true) :
    begin? c = some ([], .number [c]) := by
  have spaces : [' ', '\t', '\n', '\r'].all (!isNumeric ·) = true := by decide
  have space : isSpace c = false := by
    refine Bool.eq_false_iff.2 fun space => ?_
    have other := List.all_eq_true.1 spaces c (List.contains_iff_mem.1 space)
    rw [numeric] at other
    cases other
  have quote : c ≠ '"' := by
    rintro rfl
    cases numeric
  simp [begin?, space, quote, numeric]

theorem isNumeric_of_mem_ofInt {n : Int} (member : c ∈ Text.ofInt n) : isNumeric c = true := by
  rcases Text.mem_ofInt member with digit | rfl
  · simp [isNumeric, digit]
  · rfl

/-- The number `n` ends before a character that no number has. -/
private theorem scanFrom?_ofInt (n : Int) (other : isNumeric c = false) (rest : Text) :
    scanFrom? .between (Text.ofInt n ++ c :: rest) =
      (scanFrom? .between (c :: rest)).map (.datum (.number n) :: ·) := by
  have numeric : ∀ d ∈ Text.ofInt n, isNumeric d = true := fun _ => isNumeric_of_mem_ofInt
  have number : endNumber? (Text.ofInt n) = some (.datum (.number n)) := by
    rw [endNumber?, Text.readInt?_eq_some_iff.2 rfl]
    rfl
  obtain ⟨first, others, spelt⟩ := List.exists_cons_of_ne_nil (Text.ofInt_ne_nil n)
  rw [spelt] at numeric number ⊢
  rw [List.forall_mem_cons] at numeric
  have begins : step? .between first = some ([], .number [first]) :=
    begin?_of_isNumeric numeric.1
  -- after the number, the character does what it does between two tokens
  have ends : step? (.number (first :: others)) c =
      (begin? c).map fun (tokens, next) => (.datum (.number n) :: tokens, next) := by
    rw [step?, if_neg (Bool.eq_false_iff.1 other), number]
    cases begin? c <;> rfl
  rw [List.cons_append, scanFrom?_cons_of_step begins, scanFrom?_number [first] numeric.2,
    List.singleton_append, scanFrom?, scanFrom?, ends, step?]
  cases begin? c with
  | none => rfl
  | some step => simp [Option.map_map, Function.comp_def]

end

/-! ## The tokens of a text in parts -/

/-- Between two tokens, `text` has the tokens `tokens`, whatever comes after it. -/
def Scans (text : Text) (tokens : List Token) : Prop :=
  ∀ rest, scanFrom? .between (text ++ rest) = (scanFrom? .between rest).map (tokens ++ ·)

/-- Between two tokens, `text` has the tokens `tokens` before a character that no number has. -/
def ScansBefore (text : Text) (tokens : List Token) : Prop :=
  ∀ c rest, isNumeric c = false →
    scanFrom? .between (text ++ c :: rest) =
      (scanFrom? .between (c :: rest)).map (tokens ++ ·)

section

variable {text first second : Text} {tokens before after : List Token}

theorem Scans.scansBefore (scans : Scans text tokens) : ScansBefore text tokens :=
  fun c rest _ => scans (c :: rest)

theorem Scans.append_before (former : Scans first before) (latter : ScansBefore second after) :
    ScansBefore (first ++ second) (before ++ after) := by
  intro c rest other
  rw [List.append_assoc, former, latter c rest other, Option.map_map]
  simp only [Function.comp_def, List.append_assoc]

/-- A text with its tokens can be followed by a `second` one that does not begin like a number. -/
theorem ScansBefore.append (former : ScansBefore first before) (latter : Scans second after)
    (ended : second.head?.any fun c => !isNumeric c) :
    Scans (first ++ second) (before ++ after) := by
  cases second with
  | nil => cases ended
  | cons c others =>
    intro rest
    have other : isNumeric c = false := by simpa using ended
    rw [List.append_assoc, List.cons_append, former c _ other, ← List.cons_append, latter,
      Option.map_map]
    simp only [Function.comp_def, List.append_assoc]

theorem Scans.append (former : Scans first before) (latter : Scans second after) :
    Scans (first ++ second) (before ++ after) := by
  intro rest
  rw [List.append_assoc, former, latter, Option.map_map]
  simp only [Function.comp_def, List.append_assoc]

/-- A `text` of spaces and marks has the marks as its tokens, whatever comes after it. -/
theorem scans_of_scan? (plain : text.all fun c => (begin? c).any fun step => step.2 = .between)
    (scanned : scan? text = some tokens) : Scans text tokens := by
  induction text generalizing tokens with
  | nil =>
    cases scanned
    intro rest
    exact Option.map_id_apply.symm
  | cons c others ih =>
    rw [List.all_cons, Bool.and_eq_true] at plain
    cases begun : begin? c with
    | none =>
      rw [begun] at plain
      cases plain.1
    | some step =>
      obtain ⟨here, next⟩ := step
      -- the first character leads back to where it has begun
      obtain rfl : next = .between := by simpa [begun] using plain.1
      have read : ∀ rest, scanFrom? .between (c :: rest) =
          (scanFrom? .between rest).map (here ++ ·) := by
        intro rest
        rw [scanFrom?, step?, begun]
        rfl
      rw [scan?, read] at scanned
      obtain ⟨later, scannedLater, rfl⟩ := Option.map_eq_some_iff.1 scanned
      intro rest
      rw [List.cons_append, read, ih plain.2 scannedLater, Option.map_map]
      simp only [Function.comp_def, List.append_assoc]

/-- What `quote` writes is the one token of its text. -/
theorem scans_quote (text : Text) : Scans (quote text) [.datum (.string text)] := by
  intro rest
  have opens : step? .between '"' = some ([], .string []) := rfl
  rw [quote, List.cons_append, scanFrom?_cons_of_step opens, List.append_assoc,
    List.singleton_append, scanFrom?_flatMap_escapeChar]
  rfl

/-- The text of `datum` is read as itself before a character that no number has. -/
theorem scansBefore_datum (datum : Datum) : ScansBefore datum.text [.datum datum] := by
  cases datum with
  | number n => exact fun c rest other => scanFrom?_ofInt n other rest
  | string text => exact (scans_quote text).scansBefore

/-- Several `items` over several lines, with a comma at the end of each line but the last. -/
theorem scansBefore_intercalate {Item : Type} {spell : Item → Text} {meaning : Item → List Token}
    (items : List Item) (scans : ∀ item, ScansBefore (spell item) (meaning item)) :
    ScansBefore (List.intercalate (",\n" : Text) (items.map spell))
      (List.intercalate [.comma] (items.map meaning)) := by
  have comma : Scans (",\n" : Text) [.comma] := scans_of_scan? (by decide) (by decide)
  induction items with
  | nil => exact fun c rest _ => Option.map_id_apply.symm
  | cons item others ih =>
    cases others with
    | nil => simpa using scans item
    | cons next others =>
      rw [List.map_cons, List.map_cons, List.map_cons, List.map_cons,
        List.intercalate_cons_cons, List.intercalate_cons_cons, ← List.map_cons, ← List.map_cons]
      exact ((scans item).append comma (by decide)).append_before ih

end

end LabelledEnum.Json
