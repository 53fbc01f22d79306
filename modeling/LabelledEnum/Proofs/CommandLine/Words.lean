import LabelledEnum.CommandLine.Item

/-!
# Words that set switches

What a word of a command line does to the arguments depends on the word alone, and on the next one if it
looks for a value there. So the word of a switch can be put among other words without a change to what they
are.

* `Switch.word`: the word that sets a switch.
* `items_cons`: what one word does to the arguments.
* `items_insert`: the arguments with the word of a switch among the others.
* `word_mem_of_switch_mem_items`: a switch among the arguments has been written.
-/

namespace LabelledEnum.CommandLine

/-- The word that sets the switch `option`. -/
def Switch.word (option : Switch) : Text := '-' :: '-' :: option.name

variable {command : Command} {option : Switch}

theorem Switch.ofText_word (option : Switch) : Word.ofText option.word = .long option.name none := by
  cases option <;> decide

theorem Command.known?_name (member : option ∈ command.switches) :
    command.known? option.name = some (.switch option) := by
  revert member
  cases command <;> cases option <;> decide

/-- The word of `option` is never taken as the value of an option before it. -/
theorem Parameter.accepts_word (parameter : Parameter) (option : Switch) :
    parameter.accepts option.word = false := by
  rw [Parameter.accepts, option.ofText_word]
  cases option <;> simp [Switch.word, isNumberWord, isNumberFrom]

/-- A `word` that is a name without a value is that name behind two dashes. -/
private theorem eq_of_ofText_eq_long {word name : Text} (form : Word.ofText word = .long name none) :
    word = '-' :: '-' :: name := by
  unfold Word.ofText at form
  split at form
  · cases form
  · next body _ =>
    obtain ⟨rfl, bare⟩ : body.takeWhile (· ≠ '=') = name ∧ afterEquals? body = none := by
      simpa using form
    -- without a value after it, no equals sign ends the name
    have ended : body.dropWhile (· ≠ '=') = [] := by
      cases rest : body.dropWhile (· ≠ '=') with
      | nil => rfl
      | cons c others =>
        rw [afterEquals?, rest] at bare
        cases bare
    have whole := List.takeWhile_append_dropWhile (p := (· ≠ '=')) (l := body)
    rw [ended, List.append_nil] at whole
    rw [whole]
  · cases form
  · cases form

private theorem name_of_known? {name : Text} (known : command.known? name = some (.switch option)) :
    option.name = name := by
  unfold Command.known? at known
  split at known
  · cases known
  · rcases Option.or_eq_some_iff.1 known with parameter | ⟨-, switch⟩
    · simp at parameter
    · obtain ⟨found, listed, same⟩ := Option.map_eq_some_iff.1 switch
      cases same
      simpa using List.find?_some listed

/-- After `command`, a `word` ends the options, or makes an argument of its own, or is an option that looks at
the next word for its value. -/
theorem items_cons (command : Command) (word : Text) :
    (∀ rest, items command (word :: rest) = rest.map .plain) ∨
    (∃ item, (∀ rest, items command (word :: rest) = item :: items command rest) ∧
      ∀ option, item = .switch option → word = option.word) ∨
    ∃ option : Parameter, items command [word] = [.spaced option none] ∧
      ∀ next rest, items command (word :: next :: rest) =
        if option.accepts next then .spaced option (some next) :: items command rest
        else .spaced option none :: items command (next :: rest) := by
  -- the form of the word decides, and for a name without a value what it names
  cases form : Word.ofText word with
  | endOfOptions => exact .inl fun rest => by rw [items, form]
  | plain => exact .inr (.inl ⟨.plain word, fun rest => by rw [items, form], nofun⟩)
  | short first =>
    refine .inr (.inl ⟨shortItem first, fun rest => by rw [items, form], fun option same => ?_⟩)
    unfold shortItem at same
    split at same <;> cases same
  | long name value =>
    cases value with
    | some value =>
      refine .inr (.inl ⟨attachedItem command name value, fun rest => by rw [items, form], ?_⟩)
      intro option same
      unfold attachedItem at same
      split at same <;> cases same
    | none =>
      cases known : command.known? name with
      | none =>
        exact .inr (.inl ⟨.refused .unknownArgument, fun rest => by simp only [items, form, known],
          nofun⟩)
      | some found =>
        cases found with
        | help => exact .inr (.inl ⟨.help, fun rest => by simp only [items, form, known], nofun⟩)
        | switch option =>
          refine .inr (.inl ⟨.switch option, fun rest => by simp only [items, form, known], ?_⟩)
          rintro _ ⟨⟩
          rw [Switch.word, name_of_known? known]
          exact eq_of_ofText_eq_long form
        | parameter option =>
          refine .inr (.inr ⟨option, by simp only [items, form, known], fun next rest => ?_⟩)
          rw [items, form]
          dsimp only
          rw [known]

/-- The word of `option` makes an argument of its own where no value is awaited. -/
theorem items_word_cons (member : option ∈ command.switches) (rest : List Text) :
    items command (option.word :: rest) = .switch option :: items command rest := by
  rw [items, option.ofText_word]
  dsimp only
  rw [Command.known?_name member]

/-- The word of `option` adds an argument, if it does not take the place of a value: the switch, or after the
end of the options the word as it is. -/
theorem items_insert (member : option ∈ command.switches) (front back : List Text)
    (full : ∀ parameter, .spaced parameter none ∉ items command (front ++ option.word :: back)) :
    ∃ before item after, items command (front ++ back) = before ++ after ∧
      items command (front ++ option.word :: back) = before ++ item :: after ∧
      (item = .switch option ∨ item = .plain option.word) := by
  -- by induction on the words before it, of which one or two make up the first argument
  cases front with
  | nil => exact ⟨[], .switch option, items command back, rfl, items_word_cons member back, .inl rfl⟩
  | cons word rest =>
    rw [List.cons_append] at full
    rw [List.cons_append, List.cons_append]
    rcases items_cons command word with plain | ⟨item, own, -⟩ | ⟨parameter, -, looks⟩
    · -- after the end of the options every word is an argument as it is
      rw [plain, plain, List.map_append, List.map_append]
      exact ⟨rest.map .plain, .plain option.word, back.map .plain, rfl, rfl, .inr rfl⟩
    · rw [own] at full
      obtain ⟨before, added, after, without, together, kind⟩ :=
        items_insert member rest back fun parameter inside => full parameter (List.mem_cons_of_mem _ inside)
      rw [own, own, without, together]
      exact ⟨item :: before, added, after, rfl, rfl, kind⟩
    · cases rest with
      | nil =>
        -- the option before it would be left without its value
        rw [List.nil_append, looks, parameter.accepts_word, if_neg Bool.false_ne_true] at full
        exact absurd List.mem_cons_self (full parameter)
      | cons next others =>
        rw [List.cons_append, looks] at full
        rw [List.cons_append, List.cons_append, looks, looks]
        split at full
        · next accepted =>
          obtain ⟨before, added, after, without, together, kind⟩ :=
            items_insert member others back fun parameter inside =>
              full parameter (List.mem_cons_of_mem _ inside)
          rw [if_pos accepted, if_pos accepted, without, together]
          exact ⟨.spaced parameter (some next) :: before, added, after, rfl, rfl, kind⟩
        · -- the option before the next word is left without its value
          exact absurd List.mem_cons_self (full parameter)
termination_by front.length

/-- An argument that is the switch `option` comes from its word. -/
theorem word_mem_of_switch_mem_items {words : List Text} (member : .switch option ∈ items command words) :
    option.word ∈ words := by
  cases words with
  | nil => cases member
  | cons word rest =>
    rcases items_cons command word with plain | ⟨item, own, spelt⟩ | ⟨parameter, last, looks⟩
    · rw [plain] at member
      simp at member
    · rw [own] at member
      rcases List.mem_cons.1 member with same | later
      · rw [spelt option same.symm]
        exact List.mem_cons_self
      · exact List.mem_cons_of_mem _ (word_mem_of_switch_mem_items later)
    · cases rest with
      | nil =>
        rw [last] at member
        simp at member
      | cons next others =>
        -- a word that is taken as a value is no argument of its own
        rw [looks] at member
        split at member
        · have later : .switch option ∈ items command others := by simpa using member
          exact List.mem_cons_of_mem _ (List.mem_cons_of_mem _ (word_mem_of_switch_mem_items later))
        · have later : .switch option ∈ items command (next :: others) := by simpa using member
          exact List.mem_cons_of_mem _ (word_mem_of_switch_mem_items later)
termination_by words.length

end LabelledEnum.CommandLine
