import LabelledEnum.CommandLine.Invocation
import LabelledEnum.Proofs.CommandLine.Arguments
import LabelledEnum.Proofs.CommandLine.Words

/-!
# Switches on a command line

A switch can be written at any place of a command line where an argument can begin, and all that it changes
is that it is set.

* `settings_insert`: what one more word with a switch sets.
* `GenerateOptions.flag`, `GenerateOptions.clear`: whether a switch is set, and the options without it.
* `GenerateOptions.ofSettings_insert`: the options with one switch more.
* `Invocation.Adds.parse_eq`: a command line with a switch added tells the same and the switch.
* `Invocation.parse_erase`: a command line without a switch tells the same but the switch.
-/

namespace LabelledEnum.CommandLine

variable {command : Command} {option : Switch}

/-! ## Settings -/

/-- Only the switch `option` makes a setting of that switch. -/
theorem Item.eq_switch_of_setting? {item : Item} {setting : Setting}
    (read : item.setting? command = some setting) (same : setting.slot = .switch option) :
    item = .switch option := by
  -- what is read as the value of an option is about that option
  have value : ∀ {parameter : Parameter} {value : Text},
      (parameter.read value).toOption ≠ some setting := by
    intro parameter value read
    cases up : parameter.read value with
    | error misuse =>
      rw [up] at read
      cases read
    | ok _ =>
      rw [up] at read
      cases read
      rw [slot_of_read up] at same
      cases same
  cases item with
  | switch other =>
    cases read
    cases same
    rfl
  | attached parameter text => exact absurd read value
  | spaced parameter text =>
    obtain ⟨text, -, read⟩ := Option.bind_eq_some_iff.1 read
    exact absurd read value
  | plain word =>
    dsimp only [Item.setting?] at read
    split at read
    · cases read
      cases same
    · cases read
  | help => cases read
  | refused misuse => cases read

/-- One more word with `option` makes one more setting, of the switch or else of the class id, and without the
word all other settings are made. -/
theorem settings_insert (member : option ∈ command.switches) {front back : List Text}
    {more : List Setting} (told : settings command (front ++ option.word :: back) = .ok more) :
    ∃ before setting after, more = before ++ setting :: after ∧
      settings command (front ++ back) = .ok (before ++ after) ∧
      (setting = .switch option ∨ setting = .classId option.word) := by
  obtain ⟨reads, apart⟩ := settings_eq_ok_iff.1 told
  have full : ∀ parameter,
      .spaced parameter none ∉ items command (front ++ option.word :: back) := by
    intro parameter inside
    have read := List.mem_map_of_mem (f := Item.setting? command) inside
    rw [reads] at read
    obtain ⟨setting, -, same⟩ := List.mem_map.1 read
    cases same
  obtain ⟨before, item, after, without, together, kind⟩ := items_insert member front back full
  -- the settings are those of the arguments before the word, of the word and of the arguments after it
  rw [together, List.map_append, List.map_cons] at reads
  obtain ⟨first, others, rfl, firsts, others_eq⟩ := List.map_eq_append_iff.1 reads.symm
  obtain ⟨setting, last, rfl, read, lasts⟩ := List.map_eq_cons_iff.1 others_eq
  refine ⟨first, setting, last, rfl, settings_eq_ok_iff.2 ⟨?_, ?_⟩, ?_⟩
  · rw [without, List.map_append, List.map_append, firsts, lasts]
  · exact apart.sublist ((List.sublist_cons_self setting last).append_left first)
  · rcases kind with rfl | rfl
    · exact .inl (Option.some.inj read)
    · dsimp only [Item.setting?] at read
      split at read
      · exact .inr (Option.some.inj read)
      · cases read

/-- A `setting` of another slot does not decide what is set in `slot`. -/
theorem isSet_insert {before after : List Setting} {setting : Setting} {slot : Slot}
    (other : setting.slot ≠ slot) :
    isSet (before ++ setting :: after) slot = isSet (before ++ after) slot := by
  simp [isSet, other]

/-- No two settings of the slot of `setting` are made, unless it is one that repeats. -/
theorem isSet_eq_false_of_pairwise {before after : List Setting} {setting : Setting}
    (apart : (before ++ setting :: after).Pairwise Setting.Apart)
    (single : setting.slot.repeats = false) : isSet (before ++ after) setting.slot = false := by
  rw [List.pairwise_append, List.pairwise_cons] at apart
  obtain ⟨-, ⟨behind, -⟩, ahead⟩ := apart
  refine Bool.eq_false_iff.2 fun found => ?_
  obtain ⟨other, member, same⟩ := List.any_eq_true.1 found
  have same : other.slot = setting.slot := by simpa using same
  rcases List.mem_append.1 member with early | late
  · rw [ahead other early setting List.mem_cons_self same] at single
    cases single
  · have repeats := behind other late same.symm
    rw [same, single] at repeats
    cases repeats

namespace GenerateOptions

/-- Whether a switch is set in `options`. -/
def flag (options : GenerateOptions) : Switch → Bool
  | .sort => options.sort
  | .stdout => options.stdout
  | .dryRun => options.dryRun
  | .diff => options.diff
  | .overwrite => options.overwrite
  | .json => false

/-- The `options` without a switch. -/
def clear (options : GenerateOptions) : Switch → GenerateOptions
  | .sort => { options with sort := false }
  | .stdout => { options with stdout := false }
  | .dryRun => { options with dryRun := false }
  | .diff => { options with diff := false }
  | .overwrite => { options with overwrite := false }
  | .json => options

theorem clear_eq_self {options : GenerateOptions} (unset : options.flag option = false) :
    options.clear option = options := by
  obtain ⟨⟩ := options
  cases option <;> cases unset <;> rfl

theorem clear_apply (options : GenerateOptions) (option : Switch) :
    (options.apply (.switch option)).clear option = options.clear option := by
  cases option <;> rfl

/-- A `setting` sets the switch `option` and no other. -/
theorem flag_apply (member : option ∈ Command.generate.switches) (options : GenerateOptions)
    (setting : Setting) :
    (options.apply setting).flag option =
      (options.flag option || decide (setting.slot = .switch option)) := by
  have known : option ≠ .json := by
    rintro rfl
    exact absurd member (by decide)
  -- no other setting changes whether the switch is set
  cases setting with
  | switch other => cases other <;> cases option <;> simp_all [flag, apply, Setting.slot]
  | _ => cases option <;> simp [flag, apply, Setting.slot]

/-- The switch `option` is set by the settings in `made` or was set before them. -/
theorem flag_foldl_apply (member : option ∈ Command.generate.switches) (options : GenerateOptions)
    (made : List Setting) :
    (made.foldl apply options).flag option = (options.flag option || isSet made (.switch option)) := by
  induction made generalizing options with
  | nil => simp [isSet]
  | cons setting rest ih =>
    rw [List.foldl_cons, ih, flag_apply member, Bool.or_assoc]
    rfl

/-- The switch `option` can be set before or after any other `setting`. -/
theorem apply_comm (options : GenerateOptions) (setting : Setting) (option : Switch) :
    (options.apply (.switch option)).apply setting =
      (options.apply setting).apply (.switch option) := by
  cases setting with
  | switch other => cases other <;> cases option <;> rfl
  | _ => cases option <;> rfl

/-- Wherever the switch `option` is set among other settings, it might be set last. -/
theorem foldl_apply_insert (options : GenerateOptions) (before after : List Setting)
    (option : Switch) :
    (before ++ .switch option :: after).foldl apply options =
      ((before ++ after).foldl apply options).apply (.switch option) := by
  -- the switch moves behind one setting after the other
  have moved : ∀ options : GenerateOptions, after.foldl apply (options.apply (.switch option)) =
      (after.foldl apply options).apply (.switch option) := by
    induction after with
    | nil => exact fun _ => rfl
    | cons setting rest ih =>
      intro options
      rw [List.foldl_cons, List.foldl_cons, apply_comm, ih]
  rw [List.foldl_append, List.foldl_append, List.foldl_cons, moved]

/-- The switch `option` is all that changes when its setting is added. -/
theorem ofSettings_insert (before after : List Setting) (option : Switch) :
    ofSettings (before ++ .switch option :: after) =
      (ofSettings (before ++ after)).map (·.apply (.switch option)) := by
  have same : ∀ slot, Slot.switch option ≠ slot →
      isSet (before ++ .switch option :: after) slot = isSet (before ++ after) slot :=
    fun slot other => isSet_insert other
  unfold ofSettings
  rw [same (.parameter .outDir) nofun, same (.parameter .directoryAlias) nofun, same .classId nofun,
    same (.parameter .values) nofun, foldl_apply_insert]
  split
  · rfl
  · split <;> rfl

/-- What `ofSettings` asks of settings: no directory beside aliases, and a class id and a value list. -/
theorem ofSettings_eq_ok_iff {made : List Setting} {options : GenerateOptions} :
    ofSettings made = .ok options ↔
      (isSet made (.parameter .outDir) && isSet made (.parameter .directoryAlias)) = false ∧
        (isSet made .classId && isSet made (.parameter .values)) = true ∧
        made.foldl apply { classId := "", values := "" } = options := by
  unfold ofSettings
  split
  · next both => simp [both]
  · next conflict =>
    split
    · next set => simp [Bool.eq_false_iff.2 conflict, set]
    · next unset => simp [Bool.eq_false_iff.2 unset]

/-- The switches of `options` are those that their settings set. -/
theorem flag_of_ofSettings (member : option ∈ Command.generate.switches) {made : List Setting}
    {options : GenerateOptions} (up : ofSettings made = .ok options) :
    options.flag option = isSet made (.switch option) := by
  obtain ⟨-, -, rfl⟩ := ofSettings_eq_ok_iff.1 up
  rw [flag_foldl_apply member]
  -- no switch is set to begin with
  cases option <;> rfl

/-- Settings without a class id leave that of `options`. -/
theorem classId_foldl_apply {options : GenerateOptions} {made : List Setting}
    (unset : isSet made .classId = false) : (made.foldl apply options).classId = options.classId := by
  induction made generalizing options with
  | nil => rfl
  | cons setting rest ih =>
    obtain ⟨other, unset⟩ := Bool.or_eq_false_iff.1 unset
    rw [List.foldl_cons, ih unset]
    -- no other setting changes the class id
    cases setting with
    | classId text => simp [Setting.slot] at other
    | switch option => cases option <;> rfl
    | _ => rfl

end GenerateOptions

/-! ## Command lines -/

namespace Invocation

variable {options : GenerateOptions} {words front back : List Text}

/-- A command line tells to make a class when it begins with that command and the words after it make up
`options`. -/
theorem parse_eq_generate_iff :
    parse words = .ok (.generate options) ↔
      ∃ rest made, words = Command.generate.name :: rest ∧ settings .generate rest = .ok made ∧
        GenerateOptions.ofSettings made = .ok options := by
  constructor
  · intro told
    -- no first word but a command leads to options
    cases words with
    | nil => cases told
    | cons word rest =>
      rw [parse] at told
      split at told
      · next command found =>
        have named : command.name = word := by simpa using List.find?_some found
        obtain ⟨made, set, told⟩ := Except.bind_eq_ok_iff.1 told
        cases command with
        | generate =>
          refine ⟨rest, made, by rw [← named], set, ?_⟩
          change ((GenerateOptions.ofSettings made).map generate).mapError Stop.misuse = _ at told
          cases up : GenerateOptions.ofSettings made with
          | error misuse =>
            rw [up] at told
            cases told
          | ok filled =>
            rw [up] at told
            cases told
            rfl
        | normalize =>
          change ((NormalizeOptions.ofSettings made).map normalize).mapError Stop.misuse = _ at told
          cases up : NormalizeOptions.ofSettings made <;>
            rw [up] at told <;> cases told
      · split at told
        · cases told
        · split at told
          · unfold ofTrailing at told
            split at told <;> cases told
          · cases told
  · rintro ⟨rest, made, rfl, set, up⟩
    have found : command? Command.generate.name = some .generate := by decide
    rw [parse, found]
    dsimp only [ofCommand]
    rw [set]
    change ((GenerateOptions.ofSettings made).map generate).mapError Stop.misuse = _
    rw [up]
    rfl

/-- A command line with the word of `option` in it tells the same without the word and the switch, unless the
word is its class id. -/
theorem parse_insert_cases (member : option ∈ Command.generate.switches) {more : GenerateOptions}
    (told : parse (front ++ option.word :: back) = .ok (.generate more)) :
    (∃ options, parse (front ++ back) = .ok (.generate options) ∧ options.flag option = false ∧
      options.apply (.switch option) = more) ∨
    (more.classId = option.word ∧ ∀ options, parse (front ++ back) ≠ .ok (.generate options)) := by
  obtain ⟨rest, made, begins, set, up⟩ := parse_eq_generate_iff.1 told
  cases front with
  | nil =>
    -- a command line begins with the command
    have named : option.word = Command.generate.name := (List.cons.inj begins).1
    exact absurd named (by cases option <;> decide)
  | cons word front =>
    obtain ⟨rfl, rfl⟩ := List.cons.inj begins
    obtain ⟨before, setting, after, rfl, without, kind⟩ := settings_insert member set
    have apart := (settings_eq_ok_iff.1 set).2
    rcases kind with rfl | rfl
    · left
      rw [GenerateOptions.ofSettings_insert] at up
      obtain ⟨options, fewer, rfl⟩ := Except.map_eq_ok_iff.1 up
      refine ⟨options, parse_eq_generate_iff.2 ⟨_, _, rfl, without, fewer⟩, ?_, rfl⟩
      rw [GenerateOptions.flag_of_ofSettings member fewer]
      exact isSet_eq_false_of_pairwise apart rfl
    · right
      have unset : isSet (before ++ after) .classId = false := isSet_eq_false_of_pairwise apart rfl
      constructor
      · obtain ⟨-, -, rfl⟩ := GenerateOptions.ofSettings_eq_ok_iff.1 up
        have late : isSet after .classId = false := by
          rw [isSet, List.any_append, Bool.or_eq_false_iff] at unset
          exact unset.2
        rw [List.foldl_append, List.foldl_cons, GenerateOptions.classId_foldl_apply late]
        rfl
      · -- without the word there is no class id
        intro options told
        obtain ⟨rest, made, same, set, up⟩ := parse_eq_generate_iff.1 told
        have same : front ++ back = rest := (List.cons.inj same).2
        rw [← same, without] at set
        cases set
        obtain ⟨-, required, -⟩ := GenerateOptions.ofSettings_eq_ok_iff.1 up
        rw [unset] at required
        cases required

/-- The command line `more` is the command line `words` with the word of `option` added, at a place where it is
accepted. -/
def Adds (option : Switch) (words more : List Text) : Prop :=
  (∃ front back, words = front ++ back ∧ more = front ++ option.word :: back) ∧
    ∃ options, parse more = .ok (.generate options)

/-- A command line with `option` added tells the same and that switch. -/
theorem Adds.parse_eq {more : List Text} (added : Adds option words more)
    (member : option ∈ Command.generate.switches) (told : parse words = .ok (.generate options)) :
    parse more = .ok (.generate (options.apply (.switch option))) := by
  obtain ⟨⟨front, back, rfl, rfl⟩, accepted, told'⟩ := added
  rcases parse_insert_cases member told' with ⟨same, told'', -, rfl⟩ | ⟨-, never⟩
  · rw [told] at told''
    cases told''
    exact told'
  · exact absurd told (never options)

/-- A switch `option` that is not set can be added directly after the command. -/
theorem exists_adds (member : option ∈ Command.generate.switches)
    (told : parse words = .ok (.generate options)) (unset : options.flag option = false) :
    ∃ more, Adds option words more := by
  obtain ⟨rest, made, rfl, set, up⟩ := parse_eq_generate_iff.1 told
  obtain ⟨reads, apart⟩ := settings_eq_ok_iff.1 set
  rw [GenerateOptions.flag_of_ofSettings member up] at unset
  have set' : settings .generate (option.word :: rest) = .ok (.switch option :: made) := by
    refine settings_eq_ok_iff.2 ⟨?_, List.pairwise_cons.2 ⟨fun setting inside same => ?_, apart⟩⟩
    · rw [items_word_cons member, List.map_cons, List.map_cons, reads]
      rfl
    · -- a second setting of the switch would be found among the others
      have found : isSet made (.switch option) = true :=
        List.any_eq_true.2 ⟨setting, inside, decide_eq_true same.symm⟩
      rw [unset] at found
      cases found
  have up' : GenerateOptions.ofSettings (.switch option :: made) =
      .ok (options.apply (.switch option)) := by
    rw [← List.nil_append (_ :: _), GenerateOptions.ofSettings_insert, List.nil_append, up]
    rfl
  exact ⟨_, ⟨[_], rest, rfl, rfl⟩, _, parse_eq_generate_iff.2 ⟨_, _, rfl, set', up'⟩⟩

/-- A command line from which the word of `option` is taken away tells the same but the switch, unless the word
is its class id. -/
theorem parse_erase (member : option ∈ Command.generate.switches)
    (told : parse words = .ok (.generate options)) (other : options.classId ≠ option.word) :
    parse (words.erase option.word) = .ok (.generate (options.clear option)) := by
  by_cases written : option.word ∈ words
  · obtain ⟨front, back, -, rfl, erased⟩ := List.exists_erase_eq written
    rcases parse_insert_cases member told with ⟨fewer, told', unset, rfl⟩ | ⟨same, -⟩
    · rw [erased, told', GenerateOptions.clear_apply, GenerateOptions.clear_eq_self unset]
    · exact absurd same other
  · rw [List.erase_of_not_mem written, told, GenerateOptions.clear_eq_self]
    -- a switch that is set has been written
    obtain ⟨rest, made, rfl, set, up⟩ := parse_eq_generate_iff.1 told
    obtain ⟨reads, -⟩ := settings_eq_ok_iff.1 set
    rw [GenerateOptions.flag_of_ofSettings member up]
    refine Bool.eq_false_iff.2 fun found => written (List.mem_cons_of_mem _ ?_)
    obtain ⟨setting, inside, same⟩ := List.any_eq_true.1 found
    have read := List.mem_map_of_mem (f := some) inside
    rw [← reads] at read
    obtain ⟨item, listed, read⟩ := List.mem_map.1 read
    obtain rfl := Item.eq_switch_of_setting? read (by simpa using same)
    exact word_mem_of_switch_mem_items listed

end Invocation

end LabelledEnum.CommandLine
