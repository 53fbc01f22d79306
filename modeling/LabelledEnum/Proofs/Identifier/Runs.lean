import LabelledEnum.Proofs.Identifier
import Mathlib.Data.List.Pairwise
import Mathlib.Data.List.SplitBy

/-!
# Identifiers run by run

A text falls into runs of word characters and runs of other characters by turns. Its identifier keeps the former and
has one `_` for each of the latter.

* `SameKind`, `Alternating`: characters of one kind, and runs of them by turns.
* `Text.runs`, `Text.runs_eq_iff`: the only way to cut a text into such runs.
* `sanitize_append_iff`: when two texts can be sanitized one after the other.
* `sanitize_flatten`: the identifier of runs.
* `sanitize_by_runs`: the identifier of any text by its runs, and what comes of that.
-/

namespace LabelledEnum

/-- The characters `c` and `d` are word characters, or neither of them is. -/
def SameKind (c d : Char) : Prop := isWordChar c = isWordChar d

instance : DecidableRel SameKind := fun c d =>
  inferInstanceAs (Decidable (isWordChar c = isWordChar d))

instance : Trans SameKind SameKind SameKind := ⟨Eq.trans⟩

instance : Std.Symm SameKind := ⟨fun _ _ => Eq.symm⟩

/-- The texts `runs` are runs of word characters and of other characters by turns. -/
structure Alternating (runs : List Text) : Prop where
  /-- No run is empty. -/
  filled : [] ∉ runs
  /-- The characters of a run are of one kind. -/
  uniform : ∀ run ∈ runs, ∀ c ∈ run, ∀ d ∈ run, SameKind c d
  /-- The characters of two runs next to each other are of different kinds. -/
  apart : runs.IsChain fun first second => ∀ c ∈ first, ∀ d ∈ second, ¬SameKind c d

/-- The longest runs of characters of one kind in `text`, in order. -/
def Text.runs (text : Text) : List Text := text.splitBy (SameKind · ·)

/-- What stands for `run` in an identifier: the run itself, or `_` for other characters. -/
def runIdentifier (run : Text) : Text := if run.all isWordChar then run else ['_']

variable {text run first second : Text} {runs : List Text}

/-! ## The runs of a text -/

/-- A `run` is of one kind if any two characters next to each other are. -/
theorem isChain_sameKind_iff :
    (run.IsChain fun c d => decide (SameKind c d) = true) ↔
      ∀ c ∈ run, ∀ d ∈ run, SameKind c d := by
  simp only [decide_eq_true_eq]
  constructor
  · intro chain
    exact (List.isChain_iff_pairwise.1 chain).forall_of_forall fun _ _ => rfl
  · intro all
    exact (List.pairwise_of_forall_mem_list all).isChain

/-- There is no other way to cut `text` into runs of word characters and of other characters by turns. -/
theorem Text.runs_eq_iff : text.runs = runs ↔ Alternating runs ∧ runs.flatten = text := by
  rw [Text.runs, List.splitBy_eq_iff]
  constructor
  · rintro ⟨rfl, filled, chains, meeting⟩
    have uniform : ∀ run ∈ runs, ∀ c ∈ run, ∀ d ∈ run, SameKind c d :=
      fun run member => isChain_sameKind_iff.1 (chains run member)
    refine ⟨⟨filled, uniform, ?_⟩, rfl⟩
    -- the two characters that meet stand for all characters of their runs
    refine meeting.imp_of_mem_imp fun first second former latter => ?_
    rintro ⟨ends, begins, differ⟩ c inFirst d inSecond same
    have last := uniform first former _ (List.getLast_mem ends) c inFirst
    have head := uniform second latter d inSecond _ (List.head_mem begins)
    exact of_decide_eq_false differ (last.trans (same.trans head))
  · rintro ⟨⟨filled, uniform, apart⟩, rfl⟩
    refine ⟨rfl, filled, fun run member => isChain_sameKind_iff.2 (uniform run member), ?_⟩
    -- in particular the two characters that meet are of different kinds
    refine apart.imp_of_mem_imp fun first second former latter differ => ?_
    have ends : first ≠ [] := ne_of_mem_of_not_mem former filled
    have begins : second ≠ [] := ne_of_mem_of_not_mem latter filled
    exact ⟨ends, begins, decide_eq_false
      (differ _ (List.getLast_mem ends) _ (List.head_mem begins))⟩

theorem Alternating.tail (alternating : Alternating (run :: runs)) : Alternating runs where
  filled := fun member => alternating.filled (List.mem_cons_of_mem run member)
  uniform := (List.forall_mem_cons.1 alternating.uniform).2
  apart := alternating.apart.tail

/-! ## Texts one after the other -/

/-- Whether a run of other characters is going on after `text`. After the empty text one is if one was
before. -/
def endsInRun (inRun : Bool) (text : Text) : Bool :=
  (text.getLast?.map fun c => !isWordChar c).getD inRun

theorem endsInRun_cons (inRun : Bool) (c : Char) (rest : Text) :
    endsInRun inRun (c :: rest) = endsInRun (!isWordChar c) rest := by
  unfold endsInRun
  rw [List.getLast?_cons]
  cases rest.getLast? <;> rfl

/-- What is made of `second` depends on `first` only in whether that ends in a run. -/
theorem sanitizeFrom_append (inRun : Bool) (first second : Text) :
    sanitizeFrom inRun (first ++ second) =
      sanitizeFrom inRun first ++ sanitizeFrom (endsInRun inRun first) second := by
  induction first generalizing inRun with
  | nil => rfl
  | cons c rest ih =>
    rw [List.cons_append, endsInRun_cons, sanitizeFrom, sanitizeFrom]
    cases word : isWordChar c with
    | true => simp [ih]
    | false => cases inRun <;> simp [ih]

/-- It makes no difference that a run is going on before `text` if that does not go on with it. -/
theorem sanitizeFrom_true_eq_iff :
    sanitizeFrom true text = sanitize text ↔
      text = [] ∨ ∃ c ∈ text.head?, isWordChar c = true := by
  cases text with
  | nil => simp [sanitize, sanitizeFrom]
  | cons c rest =>
    cases word : isWordChar c <;> simp [sanitize, sanitizeFrom, word]

/-- The texts `first` and `second` can be sanitized one after the other exactly if no run goes on from the one
into the other. -/
theorem sanitize_append_iff :
    sanitize (first ++ second) = sanitize first ++ sanitize second ↔
      first = [] ∨ second = [] ∨ (∃ c ∈ first.getLast?, isWordChar c = true) ∨
        ∃ c ∈ second.head?, isWordChar c = true := by
  rw [sanitize, sanitizeFrom_append, ← sanitize, List.append_cancel_left_eq, endsInRun]
  cases last : first.getLast? with
  | none =>
    rw [List.getLast?_eq_none_iff] at last
    simp [last, sanitize]
  | some c =>
    have filled : first ≠ [] := by
      rintro rfl
      cases last
    cases word : isWordChar c with
    | true => simp [word, sanitize]
    | false => simp [word, filled, sanitizeFrom_true_eq_iff]

/-! ## The identifier of runs -/

private theorem sanitizeFrom_true_of_others (others : ∀ c ∈ text, isWordChar c = false) :
    sanitizeFrom true text = [] := by
  induction text with
  | nil => rfl
  | cons c rest ih =>
    rw [List.forall_mem_cons] at others
    simp [sanitizeFrom, others.1, ih others.2]

/-- A `run` is kept, or replaced as a whole. -/
theorem sanitize_run (filled : run ≠ []) (uniform : ∀ c ∈ run, ∀ d ∈ run, SameKind c d) :
    sanitize run = runIdentifier run := by
  unfold runIdentifier
  split
  · next words => exact sanitize_eq_self_iff.2 (List.all_eq_true.1 words)
  · next mixed =>
    obtain ⟨c, rest, rfl⟩ := List.exists_cons_of_ne_nil filled
    have like : ∀ d ∈ c :: rest, isWordChar c = isWordChar d := uniform c List.mem_cons_self
    have other : isWordChar c = false := by
      refine Bool.eq_false_iff.2 fun word => mixed ?_
      exact List.all_eq_true.2 fun d member => (like d member).symm.trans word
    have others : ∀ d ∈ rest, isWordChar d = false :=
      fun d member => (like d (List.mem_cons_of_mem c member)).symm.trans other
    simp [sanitize, sanitizeFrom, other, sanitizeFrom_true_of_others others]

/-- No run goes on from `run`, the first of runs by turns, into the next. -/
theorem Alternating.sanitize_append (alternating : Alternating (run :: runs)) :
    sanitize (run ++ runs.flatten) = sanitize run ++ sanitize runs.flatten := by
  rw [sanitize_append_iff]
  cases runs with
  | nil => exact .inr (.inl rfl)
  | cons next rest =>
    have ends : run ≠ [] := ne_of_mem_of_not_mem List.mem_cons_self alternating.filled
    have begins : next ≠ [] := ne_of_mem_of_not_mem List.mem_cons_self alternating.tail.filled
    have differ : ¬SameKind (run.getLast ends) (next.head begins) :=
      alternating.apart.rel _ (List.getLast_mem ends) _ (List.head_mem begins)
    -- one of two characters of different kinds is a word character
    cases word : isWordChar (run.getLast ends) with
    | true => exact .inr (.inr (.inl ⟨_, List.getLast?_eq_some_getLast ends, word⟩))
    | false =>
      refine .inr (.inr (.inr ⟨next.head begins, ?_, ?_⟩))
      · rw [List.flatten_cons, List.head?_append_of_ne_nil _ begins]
        exact List.head?_eq_some_head begins
      · exact Bool.of_not_eq_false fun same => differ (word.trans same.symm)

/-- The identifier of `runs` by turns is put together from what stands for them. -/
theorem sanitize_flatten (alternating : Alternating runs) :
    sanitize runs.flatten = runs.flatMap runIdentifier := by
  induction runs with
  | nil => rfl
  | cons run rest ih =>
    have filled : run ≠ [] := ne_of_mem_of_not_mem List.mem_cons_self alternating.filled
    have uniform := alternating.uniform run List.mem_cons_self
    rw [List.flatten_cons, alternating.sanitize_append, ih alternating.tail,
      sanitize_run filled uniform, List.flatMap_cons]

/-- There is one way to cut `text` into runs of word characters and of other characters by turns. What
`sanitize` makes of it keeps the former in their order and has one `_` for each of the latter. So sanitizing an
identifier again changes nothing, as texts of word characters and no others stand for themselves. Only the empty
text has the empty identifier. Two texts are sanitized one after the other exactly if one of them is empty, or
the first ends or the second begins with a word character. -/
theorem sanitize_by_runs (text : Text) :
    (∀ runs, text.runs = runs ↔ Alternating runs ∧ runs.flatten = text) ∧
      sanitize text = text.runs.flatMap runIdentifier ∧
      sanitize (sanitize text) = sanitize text ∧
      (sanitize text = text ↔ ∀ c ∈ text, isWordChar c = true) ∧
      (sanitize text = [] ↔ text = []) ∧
      ∀ more, sanitize (text ++ more) = sanitize text ++ sanitize more ↔
        text = [] ∨ more = [] ∨ (∃ c ∈ text.getLast?, isWordChar c = true) ∨
          ∃ c ∈ more.head?, isWordChar c = true := by
  obtain ⟨alternating, whole⟩ := Text.runs_eq_iff.1 (rfl : text.runs = text.runs)
  have spelt : sanitize text = text.runs.flatMap runIdentifier := by
    rw [← sanitize_flatten alternating, whole]
  have again : sanitize (sanitize text) = sanitize text :=
    sanitize_eq_self_iff.2 fun _ => isWordChar_of_mem_sanitize
  exact ⟨fun _ => Text.runs_eq_iff, spelt, again, sanitize_eq_self_iff, sanitize_eq_nil_iff,
    fun _ => sanitize_append_iff⟩

/-- An underscore that was typed does not join the one that a run beside it leaves. -/
example : sanitize "--caf\u00e9_- au" = ("_caf___au" : Text) := by decide

end LabelledEnum
