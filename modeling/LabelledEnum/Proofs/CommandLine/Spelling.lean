import LabelledEnum.Proofs.CommandLine.Slots
import LabelledEnum.Proofs.CommandLine.Values

/-!
# Options spelt out

Options for making a class can be written on the command line, setting by setting and in any order. An
option with a value takes one word or two.

* `Parameter.word`, `Setting.value?`: the word that names an option, and the value that is written for it.
* `Setting.IsSpelt`: the words for a setting.
* `Setting.IsLegible`: what is set can be read again.
* `Setting.IsSpelt.exists_item`: the words for a setting are one argument that makes the setting.
* `GenerateOptions.IsSpelt`, `GenerateOptions.Expressible`: the words for options, and the options for which
  there are some.
* `Invocation.parse_spelt`: a command line with these words tells to make a class with the options.
-/

namespace LabelledEnum.CommandLine

variable {setting : Setting} {option : Parameter} {value text : Text} {words : List Text}

/-! ## Words -/

/-- The word that names `option`, with two dashes before the name. -/
def Parameter.word (option : Parameter) : Text := '-' :: '-' :: option.name

namespace Parameter

theorem ofText_word (option : Parameter) : Word.ofText option.word = .long option.name none := by
  cases option <;> decide

theorem known?_name (option : Parameter) :
    Command.generate.known? option.name = some (.parameter option) := by
  cases option <;> decide

/-- The name of `option` does not end before the equals sign after it. -/
theorem equals_notMem_name (option : Parameter) : '=' ∉ option.name := by
  cases option <;> decide

/-- With an equals sign, `value` is taken off the name, whatever it is. -/
theorem ofText_attached (option : Parameter) (value : Text) :
    Word.ofText (option.word ++ '=' :: value) = .long option.name (some value) := by
  have long : Word.ofText (option.word ++ '=' :: value) =
      .long ((option.name ++ '=' :: value).takeWhile (· ≠ '='))
        (afterEquals? (option.name ++ '=' :: value)) := by
    cases option <;> rfl
  obtain ⟨before, behind⟩ := Text.span_append_cons option.equals_notMem_name value
  rw [long, before, afterEquals?, behind, List.tail?_cons]

end Parameter

/-- A word that does not begin with a dash is a plain one. -/
theorem Word.ofText_eq_plain (bare : text.head? ≠ some '-') : Word.ofText text = .plain := by
  unfold Word.ofText
  split
  · exact absurd rfl bare
  · exact absurd rfl bare
  · exact absurd rfl bare
  · rfl

/-- Digits alone are written like a number, in whatever state `isNumberFrom` begins. -/
theorem isNumberFrom_of_digits {digits : Text} {first pointAllowed markAllowed : Bool}
    (plain : ∀ c ∈ digits, c.isDigit = true) :
    isNumberFrom first pointAllowed markAllowed digits = true := by
  induction digits generalizing first with
  | nil => rfl
  | cons c rest ih =>
    rw [List.forall_mem_cons] at plain
    rw [isNumberFrom, if_pos plain.1, ih plain.2]

/-! ## Settings -/

namespace Setting

/-- The value that is written for the setting, if it is one of a `Parameter`. -/
def value? : Setting → Option Text
  | classId _ | switch _ => none
  | values text | inNamespace text | author text | description text => some text
  | start number => some (Text.ofInt number)
  | outDir path => some path
  | directoryAlias entry => some entry.text
  | indent width => some (Text.ofNat width)

/-- The setting can be written so that it is read again, as `value?` writes it. -/
def IsLegible : Setting → Prop
  | classId text => text.head? ≠ some '-'
  | switch option => option ∈ Command.generate.switches
  | values _ | inNamespace _ | author _ | description _ => True
  | start number => -0x8000000000000000 ≤ number ∧ number ≤ 0x7fffffffffffffff
  | outDir path => path ≠ []
  | directoryAlias entry => entry.IsPlain
  | indent width => width ≤ 0xffffffffffffffff

/-- The words for the setting. The value of an option is attached to its name with an equals sign, or is a
word of its own if it does not begin with a dash or is a number. -/
inductive IsSpelt : Setting → List Text → Prop where
  /-- The class id `text` as it is. -/
  | classId (text : Text) : IsSpelt (.classId text) [text]
  /-- The name of the switch `option`. -/
  | switch (option : Switch) : IsSpelt (.switch option) [option.word]
  /-- The `value` in the same word as the name of `option`. -/
  | attached {setting : Setting} (option : Parameter) (value : Text)
      (about : setting.slot = .parameter option) (written : setting.value? = some value) :
      IsSpelt setting [option.word ++ '=' :: value]
  /-- The `value` in the word after the name of `option`. -/
  | spaced {setting : Setting} (option : Parameter) (value : Text)
      (about : setting.slot = .parameter option) (written : setting.value? = some value)
      (bare : value.head? ≠ some '-' ∨ option = .start) :
      IsSpelt setting [option.word, value]

/-- A `value` that has been written is read as it was meant. -/
theorem IsLegible.read_eq_ok (legible : setting.IsLegible) (about : setting.slot = .parameter option)
    (written : setting.value? = some value) : option.read value = .ok setting := by
  cases setting with
  | classId text => cases written
  | switch option => cases written
  | values text => cases about; cases written; rfl
  | inNamespace text => cases about; cases written; rfl
  | author text => cases about; cases written; rfl
  | description text => cases about; cases written; rfl
  | start number =>
    cases about
    cases written
    rw [Parameter.read, readSigned_ofInt legible.1 legible.2]
    rfl
  | outDir path =>
    cases about
    cases written
    exact if_neg legible
  | directoryAlias entry =>
    cases about
    cases written
    rw [Parameter.read, readAlias_eq_ok_iff.2 (Alias.IsPlain.isSpelt legible)]
    rfl
  | indent width =>
    cases about
    cases written
    rw [Parameter.read, readUnsigned_ofNat legible]
    rfl

/-- A `value` in a word of its own is taken by the option before it, also if it is a number with a minus
sign. -/
theorem accepts_value (about : setting.slot = .parameter option) (written : setting.value? = some value)
    (bare : value.head? ≠ some '-' ∨ option = .start) : option.accepts value = true := by
  rw [Parameter.accepts, Bool.or_eq_true, beq_iff_eq]
  rcases bare with bare | rfl
  · exact .inl (Word.ofText_eq_plain bare)
  · cases setting with
    | start number =>
      cases written
      cases number with
      | ofNat n =>
        obtain ⟨c, rest, written, digit⟩ := Text.exists_digit_ofNat n
        refine .inl (Word.ofText_eq_plain ?_)
        rw [Text.ofInt, written]
        rintro ⟨⟩
        exact absurd digit (by decide)
      | negSucc n =>
        refine .inr ?_
        rw [Text.ofInt, isNumberWord, isNumberFrom_of_digits fun c => Text.isDigit_of_mem_ofNat]
        rfl
    | _ => cases about

/-- The `words` for a setting that can be read are one argument, whatever comes after them, and it makes the
setting. -/
theorem IsSpelt.exists_item (spelt : setting.IsSpelt words) (legible : setting.IsLegible) :
    ∃ item : Item, item.setting? .generate = some setting ∧
      ∀ rest, items .generate (words ++ rest) = item :: items .generate rest := by
  cases spelt with
  | classId text =>
    refine ⟨.plain text, rfl, fun rest => ?_⟩
    rw [List.singleton_append, items, Word.ofText_eq_plain legible]
  | switch option => exact ⟨.switch option, rfl, fun rest => items_word_cons legible rest⟩
  | attached option value about written =>
    refine ⟨.attached option value, ?_, fun rest => ?_⟩
    · rw [Item.setting?, legible.read_eq_ok about written]
      rfl
    · rw [List.singleton_append, items, option.ofText_attached]
      dsimp only
      rw [attachedItem, option.known?_name]
  | spaced option value about written bare =>
    refine ⟨.spaced option (some value), ?_, fun rest => ?_⟩
    · rw [Item.setting?, Option.bind_some, legible.read_eq_ok about written]
      rfl
    · rw [List.cons_append, List.singleton_append, items, option.ofText_word]
      dsimp only
      rw [option.known?_name]
      exact if_pos (accepts_value about written bare)

/-- There are words for every setting of `made`, by which it `IsSpelt`. -/
theorem exists_spelling (made : List Setting) :
    ∃ spelling : List (List Text), List.Forall₂ IsSpelt made spelling := by
  induction made with
  | nil => exact ⟨[], .nil⟩
  | cons setting rest ih =>
    obtain ⟨words, spelt⟩ : ∃ words, setting.IsSpelt words := by
      cases setting with
      | classId text => exact ⟨_, .classId text⟩
      | switch option => exact ⟨_, .switch option⟩
      | _ => exact ⟨_, .attached _ _ rfl rfl⟩
    obtain ⟨spelling, others⟩ := ih
    exact ⟨words :: spelling, .cons spelt others⟩

/-- Settings that are spelt out one after the other are read again by `items`. -/
theorem map_items_flatten {made : List Setting} {spelling : List (List Text)}
    (spelt : List.Forall₂ IsSpelt made spelling) (legible : ∀ setting ∈ made, setting.IsLegible) :
    (items .generate spelling.flatten).map (Item.setting? .generate) = made.map some := by
  induction spelt with
  | nil => rfl
  | cons first others ih =>
    rw [List.forall_mem_cons] at legible
    obtain ⟨item, makes, begins⟩ := first.exists_item legible.1
    rw [List.flatten_cons, begins, List.map_cons, List.map_cons, makes, ih legible.2]

end Setting

/-! ## Options -/

namespace GenerateOptions

variable {options : GenerateOptions} {made : List Setting}

/-- The `words` spell out what `options` hold, one setting after the other. -/
def IsSpelt (options : GenerateOptions) (words : List Text) : Prop :=
  ∃ made spelling, options.Arranges made ∧ List.Forall₂ Setting.IsSpelt made spelling ∧
    words = spelling.flatten

/-- The `options` can be written on the command line. -/
structure Expressible (options : GenerateOptions) : Prop where
  /-- The class id does not look like an option. -/
  classId : options.classId.head? ≠ some '-'
  /-- There is a directory. -/
  outDir : options.outDir ≠ []
  /-- The aliases have names and directories that are read as they are. -/
  aliases : ∀ entry ∈ options.aliases, entry.IsPlain
  /-- Beside aliases, no other directory is set. -/
  placement : options.aliases ≠ [] → options.outDir = "."
  /-- The value of the first constant has 64 bits. -/
  start : -0x8000000000000000 ≤ options.start ∧ options.start ≤ 0x7fffffffffffffff
  /-- The spaces are counted in 64 bits. -/
  indent : options.indent ≤ 0xffffffffffffffff

/-- What is `Expressible` consists of settings that can be read again. -/
theorem Expressible.isLegible (expressible : options.Expressible) :
    ∀ setting ∈ options.settings, setting.IsLegible := by
  intro setting member
  obtain ⟨slot, known, held⟩ := List.mem_flatMap.1 member
  cases slot with
  | classId =>
    cases List.mem_singleton.1 held
    exact expressible.classId
  | switch option =>
    dsimp only [settingsIn] at held
    split at held
    · cases List.mem_singleton.1 held
      exact Command.switch_mem_slots_iff.1 known
    · cases held
  | parameter option =>
    cases option with
    | directoryAlias =>
      obtain ⟨entry, inside, rfl⟩ := List.mem_map.1 held
      exact expressible.aliases entry inside
    | start =>
      cases List.mem_singleton.1 held
      exact expressible.start
    | outDir =>
      cases List.mem_singleton.1 held
      exact expressible.outDir
    | indent =>
      cases List.mem_singleton.1 held
      exact expressible.indent
    | _ =>
      cases List.mem_singleton.1 held
      trivial

end GenerateOptions

/-- Options that are `Expressible` can be spelt out as words, and however they are, in whatever order, the
command line tells to make a class with just these options. -/
theorem Invocation.parse_spelt {options : GenerateOptions} (expressible : options.Expressible) :
    (∃ words, options.IsSpelt words) ∧
      ∀ words, options.IsSpelt words →
        parse (Command.generate.name :: words) = .ok (.generate options) := by
  constructor
  · obtain ⟨made, arranged⟩ := GenerateOptions.exists_arranges expressible.placement
    obtain ⟨spelling, spelt⟩ := Setting.exists_spelling made
    exact ⟨spelling.flatten, made, spelling, arranged, spelt, rfl⟩
  · rintro _ ⟨made, spelling, arranged, spelt, rfl⟩
    have legible : ∀ setting ∈ made, setting.IsLegible :=
      fun setting member => expressible.isLegible setting (arranged.mem_settings member)
    have set : settings .generate spelling.flatten = .ok made :=
      settings_eq_ok_iff.2 ⟨Setting.map_items_flatten spelt legible, arranged.pairwise_apart⟩
    exact parse_eq_generate_iff.2 ⟨_, made, rfl, set, arranged.ofSettings_eq_ok⟩

/-- A negative number stands in a word of its own, a value with a dash does not. The aliases stand before and
after other options, and what is left out is implied. -/
theorem Invocation.parse_spelt_out_of_order :
    let options : GenerateOptions :=
      { classId := "order-item"
        values := "-a, b=c"
        description := ""
        start := -5
        sort := true
        aliases := [⟨"@app", "src"⟩, ⟨"@app", "-x=y"⟩] }
    let words : List Text := ["--start", "-5", "--values=-a, b=c", "--alias", "@app=src", "--sort",
      "--description", "", "order-item", "--alias=@app=-x=y"]
    options.Expressible ∧ options.IsSpelt words ∧
      parse ("generate" :: words) = .ok (.generate options) := by
  intro options words
  have expressible : options.Expressible :=
    { classId := by decide
      outDir := by decide
      aliases := by decide
      placement := fun _ => rfl
      start := by decide
      indent := by decide }
  let made : List Setting := [.start (-5), .values "-a, b=c", .directoryAlias ⟨"@app", "src"⟩,
    .switch .sort, .description "", .classId "order-item", .directoryAlias ⟨"@app", "-x=y"⟩]
  let leftOut : List Setting :=
    [.inNamespace (default : Request).inNamespace, .author "", .outDir ".", .indent 4]
  have arranged : options.Arranges made :=
    { complete := ⟨leftOut, by decide, by decide⟩
      aliases := by decide
      directory := fun _ => by decide }
  let spelling : List (List Text) := [["--start", "-5"], ["--values=-a, b=c"],
    ["--alias", "@app=src"], ["--sort"], ["--description", ""], ["order-item"], ["--alias=@app=-x=y"]]
  have spelt : List.Forall₂ Setting.IsSpelt made spelling := by
    refine .cons ?_ (.cons ?_ (.cons ?_ (.cons ?_ (.cons ?_ (.cons ?_ (.cons ?_ .nil))))))
    · exact .spaced .start "-5" rfl rfl (.inr rfl)
    · exact .attached .values "-a, b=c" rfl rfl
    · exact .spaced .directoryAlias "@app=src" rfl rfl (.inl (by decide))
    · exact .switch .sort
    · exact .spaced .description "" rfl rfl (.inl (by decide))
    · exact .classId _
    · exact .attached .directoryAlias "@app=-x=y" rfl rfl
  have written : options.IsSpelt words := ⟨made, spelling, arranged, spelt, rfl⟩
  exact ⟨expressible, written, (parse_spelt expressible).2 words written⟩

end LabelledEnum.CommandLine
