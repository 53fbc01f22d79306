import LabelledEnum.Files.Diff
import LabelledEnum.Proofs.Result
import LabelledEnum.Proofs.Text.Decimal
import LabelledEnum.Proofs.Text.Lines
import Mathlib.Data.List.Basic

/-!
# What a line diff says

A diff is a list of changes, each a line of one of the two texts with its number. It can be read back, and
with the lines of one text it gives those of the other.

* `Diff.Change`, `Diff.changes`: the lines in which two lists of lines differ.
* `Diff.mem_changes_iff`: a line is among them exactly if the other list has not the same at its place.
* `Diff.read`, `Diff.read_ofLines`: the changes that a diff shows.
* `Diff.rebuild`, `Diff.rebuild_changes`: one list of lines from the other and the changes.
* `lineDiff?_lossless`: the diff of two texts turns the lines of each into those of the other.
-/

namespace LabelledEnum

namespace Diff

/-! ## Changes -/

/-- One of the two texts that are compared. -/
inductive Side where
  /-- What was there. -/
  | old
  /-- What is there instead. -/
  | new
  deriving DecidableEq, Repr

namespace Side

/-- The opposite side, on which `Side.pick` takes the other value. -/
def other : Side → Side
  | old => new
  | new => old

/-- What belongs to `side`: `ofOld` or `ofNew`. -/
def pick {α : Type} (side : Side) (ofOld ofNew : α) : α :=
  match side with
  | old => ofOld
  | new => ofNew

/-- The sign before a line of `side`. -/
def sign (side : Side) : Char := side.pick '-' '+'

/-- The side with the sign `sign`, if there is one. -/
def ofSign? (sign : Char) : Option Side :=
  if sign = '-' then some old else if sign = '+' then some new else none

@[simp]
theorem other_other (side : Side) : side.other.other = side := by cases side <;> rfl

@[simp]
theorem ofSign?_sign (side : Side) : ofSign? side.sign = some side := by cases side <;> decide

end Side

/-- A line that one side has and the other has not at its place, which is `number` on both sides. -/
structure Change where
  /-- The side that has the line. -/
  side : Side
  /-- The number of the line, counted from one. -/
  number : Nat
  /-- The line. -/
  line : Text
  deriving DecidableEq, Repr

/-- The line of a diff that shows `change`. -/
def Change.text (change : Change) : Text :=
  change.side.sign :: ((Text.ofNat change.number).alignRight 4 ++ " | " ++ change.line)

/-- What `entry` writes is the line for a change, with its end. -/
theorem entry_eq (side : Side) (number : Nat) (line : Text) :
    entry side.sign number line = Change.text ⟨side, number, line⟩ ++ ['\n'] := by
  simp [entry, Change.text]

/-- The changes at `number`, where each side has a line or none. -/
def changesAt (number : Nat) (old new : Option Text) : List Change :=
  if old = new then []
  else (old.map (Change.mk .old number)).toList ++ (new.map (Change.mk .new number)).toList

/-- A change at a number is a line that its side has there and the opposite side has not. -/
theorem mem_changesAt_iff {number : Nat} {old new : Option Text} {change : Change} :
    change ∈ changesAt number old new ↔
      change.number = number ∧ change.side.pick old new = some change.line ∧
        change.side.other.pick old new ≠ some change.line := by
  obtain ⟨side, numbered, line⟩ := change
  unfold changesAt
  split
  · next same =>
    -- both sides have the same line or none
    subst same
    cases side <;> simp [Side.pick, Side.other]
  · next differ =>
    simp only [List.mem_append, Option.mem_toList, Option.map_eq_some_iff, Change.mk.injEq]
    cases side <;> grind [Side.pick, Side.other]

/-- The changes between the lines `olds` and `news`, both numbered from `number` on. -/
def changesFrom (number : Nat) (olds news : List Text) : List Change :=
  (List.range (max olds.length news.length)).flatMap fun place =>
    changesAt (number + place) olds[place]? news[place]?

/-- The changes between the lines `olds` and `news`, numbered from one on. -/
def changes (olds news : List Text) : List Change := changesFrom 1 olds news

variable {olds news : List Text} {change : Change} {side : Side}

/-- A line is among `changes olds news` exactly if the other side has not the same line at its place. -/
theorem mem_changes_iff :
    change ∈ changes olds news ↔
      ∃ place, change.number = place + 1 ∧
        (change.side.pick olds news)[place]? = some change.line ∧
        (change.side.other.pick olds news)[place]? ≠ some change.line := by
  have picked : ∀ (side : Side) (place : Nat),
      side.pick olds[place]? news[place]? = (side.pick olds news)[place]? := by
    intro side place
    cases side <;> rfl
  simp only [changes, changesFrom, List.mem_flatMap, List.mem_range, mem_changesAt_iff, picked]
  constructor
  · rintro ⟨place, -, numbered, here, differs⟩
    exact ⟨place, by omega, here, differs⟩
  · rintro ⟨place, numbered, here, differs⟩
    refine ⟨place, ?_, by omega, here, differs⟩
    -- a line that is there has a place within its side
    obtain ⟨inside, -⟩ := List.getElem?_eq_some_iff.1 here
    have within : (change.side.pick olds news).length ≤ max olds.length news.length := by
      cases change.side
      · exact Nat.le_max_left ..
      · exact Nat.le_max_right ..
    exact Nat.lt_of_lt_of_le inside within

/-- A `line` that is no change is on the other side too. -/
theorem getElem?_other_of_notMem {place : Nat} {line : Text}
    (unchanged : Change.mk side (place + 1) line ∉ changes olds news)
    (here : (side.pick olds news)[place]? = some line) :
    (side.other.pick olds news)[place]? = some line := by
  refine Decidable.byContradiction fun differs => unchanged ?_
  exact mem_changes_iff.2 ⟨place, rfl, here, differs⟩

/-- There is no change between `olds` and `news` exactly if they are the same. -/
theorem changes_eq_nil_iff : changes olds news = [] ↔ olds = news := by
  constructor
  · intro none
    have unchanged : ∀ change, change ∉ changes olds news := List.eq_nil_iff_forall_not_mem.1 none
    refine List.ext_getElem? fun place => Option.ext fun line => ⟨fun old => ?_, fun new => ?_⟩
    · exact getElem?_other_of_notMem (unchanged ⟨.old, place + 1, line⟩) old
    · exact getElem?_other_of_notMem (unchanged ⟨.new, place + 1, line⟩) new
  · rintro rfl
    refine List.eq_nil_iff_forall_not_mem.2 fun change member => ?_
    obtain ⟨place, -, here, differs⟩ := mem_changes_iff.1 member
    cases side : change.side <;> rw [side] at here differs <;> exact differs here

/-! ## The diff shows the changes -/

/-- The changes from `number` on are those at this number and those after it. -/
private theorem changesFrom_eq (number : Nat) (filled : olds ≠ [] ∨ news ≠ []) :
    changesFrom number olds news =
      changesAt number olds.head? news.head? ++ changesFrom (number + 1) olds.tail news.tail := by
  have length : max olds.length news.length = max olds.tail.length news.tail.length + 1 := by
    rw [← List.length_pos_iff, ← List.length_pos_iff] at filled
    rw [List.length_tail, List.length_tail]
    omega
  rw [changesFrom, length, List.range_succ_eq_map, List.flatMap_cons, List.flatMap_map, Nat.add_zero,
    ← List.head?_eq_getElem?, ← List.head?_eq_getElem?]
  refine congrArg (_ ++ List.flatMap · _) (funext fun place => ?_)
  rw [List.getElem?_tail, List.getElem?_tail, Nat.add_right_comm]
  rfl

/-- Where nothing was, each of the lines `news` is shown. -/
theorem map_text_changesFrom_nil (number : Nat) (news : List Text) :
    (changesFrom number [] news).map Change.text =
      news.mapIdx fun place line => Change.text ⟨.new, number + place, line⟩ := by
  induction news generalizing number with
  | nil => rfl
  | cons line rest ih =>
    rw [changesFrom_eq number (.inr (List.cons_ne_nil line rest)), List.map_append, List.tail_nil,
      List.tail_cons, ih, List.mapIdx_cons]
    simp only [Nat.add_right_comm number 1, Nat.add_assoc number]
    rfl

private theorem additions_eq_unlines (number : Nat) (news : List Text) :
    additions number news = Text.unlines ((changesFrom number [] news).map Change.text) := by
  induction news generalizing number with
  | nil => rfl
  | cons line rest ih =>
    rw [changesFrom_eq number (.inr (List.cons_ne_nil line rest)), List.map_append,
      Text.unlines_append, List.tail_nil, List.tail_cons, ← ih, additions]
    congr 1
    rw [show '+' = Side.sign .new from rfl, entry_eq]
    simp [changesAt, Text.unlines]

/-- The diff that `ofLines` makes has one line for each change. -/
theorem ofLines_eq_unlines (number : Nat) (olds news : List Text) :
    ofLines number olds news = Text.unlines ((changesFrom number olds news).map Change.text) := by
  fun_induction ofLines number olds news with
  | case1 number news => exact additions_eq_unlines number news
  | case2 number old olds ih =>
    rw [changesFrom_eq number (.inl (List.cons_ne_nil old olds)), List.map_append,
      Text.unlines_append, List.tail_nil, List.tail_cons, ← ih]
    congr 1
    rw [show '-' = Side.sign .old from rfl, entry_eq]
    simp [changesAt, Text.unlines]
  | case3 number old olds new news ih =>
    rw [changesFrom_eq number (.inl (List.cons_ne_nil old olds)), List.map_append,
      Text.unlines_append, List.tail_cons, List.tail_cons, ← ih]
    congr 1
    rw [show '-' = Side.sign .old from rfl, show '+' = Side.sign .new from rfl, entry_eq, entry_eq]
    simp only [changesAt, List.head?_cons, Option.some.injEq]
    split
    · rfl
    · simp [Text.unlines]

/-! ## Reading -/

/-- The change that a line of a diff shows: after the sign come spaces, the digits of the number, a bar and the
line. It undoes `Change.text`. -/
def Change.read? : Text → Option Change
  | [] => none
  | sign :: padded => do
    let side ← Side.ofSign? sign
    let line ← ((padded.dropWhile (· = ' ')).dropWhile Char.isDigit).dropPrefix? " | "
    return ⟨side, Nat.ofDigitChars 10 ((padded.dropWhile (· = ' ')).takeWhile Char.isDigit) 0, line⟩

/-- The line for `change` shows it, whatever the line of text has in it. -/
theorem Change.read?_text (change : Change) : Change.read? change.text = some change := by
  obtain ⟨side, number, line⟩ := change
  have spelt : Change.text ⟨side, number, line⟩ =
      side.sign :: (List.replicate (4 - (Text.ofNat number).length) ' ' ++
        (Text.ofNat number ++ (" | " ++ line))) := by
    simp [Change.text, Text.alignRight, List.leftpad]
  have spaces : ∀ c ∈ List.replicate (4 - (Text.ofNat number).length) ' ',
      decide (c = ' ') = true :=
    fun c member => decide_eq_true (List.eq_of_mem_replicate member)
  have filled : ∀ c ∈ (Text.ofNat number ++ (" | " ++ line)).head?, decide (c = ' ') = false := by
    refine fun c first => decide_eq_false fun space => ?_
    exact absurd (space ▸ Text.isDigit_of_mem_head?_ofNat_append first) (by decide)
  have barred : ∀ c ∈ (" | " ++ line : Text).head?, c.isDigit = false := by
    rintro c ⟨rfl⟩
    decide
  -- the spaces end at the first digit, and the digits at the space before the bar
  obtain ⟨-, unpadded⟩ := Text.span_append spaces filled
  obtain ⟨numbered, after⟩ := Text.span_append (fun _ => Text.isDigit_of_mem_ofNat) barred
  rw [spelt, Change.read?, Side.ofSign?_sign, Option.bind_eq_bind, Option.bind_some, unpadded, after,
    Text.dropPrefix?_eq_some_iff.2 rfl, Option.bind_eq_bind, Option.bind_some, numbered, Text.ofNat,
    Nat.ofDigitChars_ten_toDigits]
  rfl

/-- The changes that `diff` shows, one for each of its lines that shows one. -/
def read (diff : Text) : List Change := (diff.splitOn '\n').filterMap Change.read?

section

variable (whole : ∀ line ∈ olds ++ news, '\n' ∉ line)
include whole

/-- A line of the diff is one line, as long as the lines of both texts are. -/
theorem newline_notMem_text (member : change ∈ changes olds news) : '\n' ∉ change.text := by
  obtain ⟨place, -, here, -⟩ := mem_changes_iff.1 member
  have picked : change.side.pick olds news ⊆ olds ++ news := by
    cases change.side
    · exact List.subset_append_left olds news
    · exact List.subset_append_right olds news
  have listed : change.line ∈ olds ++ news := picked (List.mem_of_getElem? here)
  have digits : '\n' ∉ Text.ofNat change.number :=
    fun member => absurd (Text.isDigit_of_mem_ofNat member) (by decide)
  have sign : '\n' ≠ change.side.sign := by cases change.side <;> decide
  simp [Change.text, Text.alignRight, List.leftpad, List.mem_replicate, digits, sign,
    whole change.line listed]

/-- The diff of lines without line feeds has one line for each change, so `splitOn` finds them again. -/
theorem splitOn_ofLines :
    (ofLines 1 olds news).splitOn '\n' = (changes olds news).map Change.text ++ [[]] := by
  rw [ofLines_eq_unlines, Text.splitOn_unlines]
  · rfl
  · intro line member
    obtain ⟨change, listed, rfl⟩ := List.mem_map.1 member
    exact newline_notMem_text whole listed

/-- The diff of lines without line feeds shows the changes, which `read` finds. -/
theorem read_ofLines : read (ofLines 1 olds news) = changes olds news := by
  have shown : ((changes olds news).map Change.text).filterMap Change.read? = changes olds news :=
    (filterMap_map_of_some fun change _ => change.read?_text).trans (List.map_id' _)
  rw [read, splitOn_ofLines whole, List.filterMap_append, shown]
  exact List.append_nil _

end

/-! ## Rebuilding -/

/-- What `side` has at `number`: the line of a change on this side, none if there is a change on the opposite
side alone, and otherwise what the opposite side has. -/
def lineAt (side : Side) (changes : List Change) (number : Nat) (opposite : Option Text) :
    Option Text :=
  match changes.find? fun change => change.side = side ∧ change.number = number with
  | some change => some change.line
  | none =>
    if changes.any fun change => change.side = side.other ∧ change.number = number then none
    else opposite

/-- The lines of `side`, from `changes` and the lines of the opposite side. -/
def rebuild (side : Side) (changes : List Change) (opposite : List Text) : List Text :=
  (List.range (max opposite.length ((changes.map Change.number).max?.getD 0))).filterMap fun place =>
    lineAt side changes (place + 1) opposite[place]?

/-- With the changes, each line of `side` follows from the line at its place on the opposite side. -/
theorem lineAt_changes (side : Side) (olds news : List Text) (place : Nat) :
    lineAt side (changes olds news) (place + 1) (side.other.pick olds news)[place]? =
      (side.pick olds news)[place]? := by
  unfold lineAt
  split
  · next change found =>
    have belongs := List.find?_some found
    simp only [decide_eq_true_eq] at belongs
    obtain ⟨rfl, numbered⟩ := belongs
    obtain ⟨there, numbered', here, -⟩ := mem_changes_iff.1 (List.mem_of_find?_eq_some found)
    obtain rfl : there = place := by omega
    exact here.symm
  · next none =>
    have unchanged : ∀ line, Change.mk side (place + 1) line ∉ changes olds news :=
      fun line member => by simpa using List.find?_eq_none.1 none _ member
    split
    · next lost =>
      obtain ⟨⟨_, _, line⟩, member, belongs⟩ := List.any_eq_true.1 lost
      simp only [decide_eq_true_eq] at belongs
      obtain ⟨rfl, rfl⟩ := belongs
      obtain ⟨there, numbered, opposite, differs⟩ := mem_changes_iff.1 member
      obtain rfl : there = place := by simpa using numbered.symm
      -- a line on this side would be the one that this side has not
      refine (Option.eq_none_iff_forall_ne_some.2 fun line' here => differs ?_).symm
      rw [getElem?_other_of_notMem (unchanged line') here] at opposite
      rw [Side.other_other, here, opposite]
    · next kept =>
      have unchanged' : ∀ line, Change.mk side.other (place + 1) line ∉ changes olds news :=
        fun line member => kept (List.any_eq_true.2 ⟨_, member, by simp⟩)
      refine Option.ext fun line => ⟨fun opposite => ?_, getElem?_other_of_notMem (unchanged line)⟩
      have here := getElem?_other_of_notMem (unchanged' line) opposite
      rwa [Side.other_other] at here

private theorem filterMap_range_getElem? {lines : List Text} {bound : Nat}
    (enough : lines.length ≤ bound) : (List.range bound).filterMap (lines[·]?) = lines := by
  induction lines generalizing bound with
  | nil => simp
  | cons line rest ih =>
    cases bound with
    | zero => simp at enough
    | succ bound =>
      rw [List.range_succ_eq_map, List.filterMap_cons, List.filterMap_map]
      exact congrArg (line :: ·) (ih (Nat.le_of_succ_le_succ enough))

/-- The changes between `olds` and `news` turn each of them into the other. -/
theorem rebuild_changes (side : Side) (olds news : List Text) :
    rebuild side (changes olds news) (side.other.pick olds news) = side.pick olds news := by
  unfold rebuild
  simp only [lineAt_changes]
  refine filterMap_range_getElem? (Nat.le_of_not_lt fun short => ?_)
  -- the first line beyond the bound would be a change, and its number would be beyond the bound too
  generalize bound : max (side.other.pick olds news).length
    (((changes olds news).map Change.number).max?.getD 0) = last at short
  have beyond : (side.other.pick olds news)[last]? = none :=
    List.getElem?_eq_none (bound ▸ Nat.le_max_left ..)
  have member : Change.mk side (last + 1) (side.pick olds news)[last] ∈ changes olds news :=
    mem_changes_iff.2 ⟨last, rfl, List.getElem?_eq_getElem short, by rw [beyond]; nofun⟩
  have numbered : last + 1 ≤ ((changes olds news).map Change.number).max?.getD 0 :=
    List.le_max?_getD_of_mem (List.mem_map.2 ⟨_, member, rfl⟩)
  exact Nat.not_succ_le_self last (Nat.le_trans numbered (bound ▸ Nat.le_max_right ..))

/-- The new lines, from `olds` and `diff`. -/
def patch (olds : List Text) (diff : Text) : List Text := rebuild .new (read diff) olds

/-- The old lines, from `news` and `diff`. -/
def revert (news : List Text) (diff : Text) : List Text := rebuild .old (read diff) news

end Diff

/-! ## Diffs of texts -/

/-- Only equal texts have no diff, by the first test that `lineDiff?` makes. -/
theorem lineDiff?_eq_none_iff {old new : Text} : lineDiff? old new = none ↔ old = new := by
  unfold lineDiff?
  split <;> simp [*]

/-- Texts that differ have the diff of their lines, numbered from one. -/
theorem lineDiff?_of_ne {old new : Text} (differ : old ≠ new) :
    lineDiff? old new = some (Diff.ofLines 1 old.lines new.lines) :=
  if_neg differ

/-- No line of a text has the end of a line in it, on whichever side `line` is. -/
theorem Diff.newline_notMem_of_mem_lines {old new line : Text}
    (member : line ∈ old.lines ++ new.lines) : '\n' ∉ line :=
  (List.mem_append.1 member).elim Text.newline_notMem_of_mem_lines Text.newline_notMem_of_mem_lines

/-- The diff of `old` and `new` shows the changes between their lines. -/
theorem Diff.read_ofLines_lines (old new : Text) :
    Diff.read (Diff.ofLines 1 old.lines new.lines) = Diff.changes old.lines new.lines :=
  Diff.read_ofLines fun _ => Diff.newline_notMem_of_mem_lines

/-- The diff of `old` and `new`, if they have one, turns the lines of each side into those of the other. -/
theorem map_rebuild_lineDiff? (side : Diff.Side) (old new : Text) :
    (lineDiff? old new).map
        (fun diff => Diff.rebuild side (Diff.read diff) (side.other.pick old.lines new.lines)) =
      if old = new then none else some (side.pick old.lines new.lines) := by
  split
  · next same => rw [lineDiff?_eq_none_iff.2 same, Option.map_none]
  · next differ =>
    rw [lineDiff?_of_ne differ, Option.map_some, Diff.read_ofLines_lines, Diff.rebuild_changes]

/-- The texts `old` and `new` have a diff unless they are equal, and whatever their lines have in them, the diff
turns the lines of each into those of the other. Texts with the same diff from a text therefore have the same
lines. -/
theorem lineDiff?_lossless (old new : Text) :
    (lineDiff? old new = none ↔ old = new) ∧
      (lineDiff? old new).map (Diff.patch old.lines) =
        (if old = new then none else some new.lines) ∧
      (lineDiff? old new).map (Diff.revert new.lines) =
        (if old = new then none else some old.lines) ∧
      ∀ other, lineDiff? old other = lineDiff? old new → other.lines = new.lines := by
  have patched : ∀ new : Text, (lineDiff? old new).map (Diff.patch old.lines) =
      if old = new then none else some new.lines :=
    fun new => map_rebuild_lineDiff? .new old new
  refine ⟨lineDiff?_eq_none_iff, patched new, map_rebuild_lineDiff? .old old new, ?_⟩
  intro other same
  have both := (patched other).symm.trans ((congrArg (Option.map _) same).trans (patched new))
  -- without a diff both texts are the old one, and with one it leads to the lines of both
  split at both
  · next unchanged =>
    split at both
    · next unchanged' => rw [← unchanged, ← unchanged']
    · cases both
  · split at both
    · cases both
    · exact Option.some.inj both

/-- Lines that look like lines of a diff do not mislead a reader, nor does a carriage return at their end. -/
example : (lineDiff? "a\n-   1 | a" "a | b\r\r\n-   1 | a\n+   3 | ").map
    (Diff.patch ["a", "-   1 | a"]) = some ["a | b\r".toList, "-   1 | a", "+   3 | "] := by
  decide

end LabelledEnum
