import LabelledEnum.Proofs.CommandLine.Switches
import Mathlib.Data.List.Nodup

/-!
# Options slot by slot

What options hold in a slot is what the last setting of that slot has put there, or all of them where
settings repeat. So settings make up the same options in whatever order the slots come.

* `Command.slots`: what the arguments of a command can set.
* `GenerateOptions.settingsIn`, `GenerateOptions.settings`: the settings of what options hold, in one slot
  and in all of them.
* `GenerateOptions.eq_of_settingsIn`: options that hold the same in every slot are the same.
* `GenerateOptions.settingsIn_apply`, `GenerateOptions.settingsIn_foldl_apply`: what one setting puts into a
  slot, and what all of them leave there.
* `GenerateOptions.Arranges`: the settings of options in some order, without some that go without saying.
* `GenerateOptions.Arranges.ofSettings_eq_ok`: these settings make up the options.
-/

namespace LabelledEnum.CommandLine

/-- What the arguments of `command` can set. -/
def Command.slots (command : Command) : List Slot :=
  (if command.takesClassId then [.classId] else []) ++ command.parameters.map .parameter ++
    command.switches.map .switch

/-- A switch has a slot among `command.slots` if it is one of the command. -/
theorem Command.switch_mem_slots_iff {command : Command} {option : Switch} :
    .switch option ∈ command.slots ↔ option ∈ command.switches := by
  unfold slots
  split <;> simp

/-- What `slot` holds after one more `setting` of it: only this one, unless settings repeat. -/
def Slot.put (slot : Slot) (held : List Setting) (setting : Setting) : List Setting :=
  if slot.repeats then held ++ [setting] else [setting]

namespace GenerateOptions

variable {options : GenerateOptions} {slot : Slot} {made : List Setting}

/-- The settings of what `options` hold in a slot. -/
def settingsIn (options : GenerateOptions) : Slot → List Setting
  | .classId => [.classId options.classId]
  | .switch option => if options.flag option then [.switch option] else []
  | .parameter .values => [.values options.values]
  | .parameter .inNamespace => [.inNamespace options.inNamespace]
  | .parameter .author => [.author options.author]
  | .parameter .description => [.description options.description]
  | .parameter .start => [.start options.start]
  | .parameter .outDir => [.outDir options.outDir]
  | .parameter .directoryAlias => options.aliases.map .directoryAlias
  | .parameter .indent => [.indent options.indent]

/-- The settings of what `options` hold, slot by slot. -/
def settings (options : GenerateOptions) : List Setting :=
  Command.generate.slots.flatMap options.settingsIn

theorem slot_of_mem_settingsIn {setting : Setting} (member : setting ∈ options.settingsIn slot) :
    setting.slot = slot := by
  cases slot with
  | classId =>
    cases List.mem_singleton.1 member
    rfl
  | switch option =>
    dsimp only [settingsIn] at member
    split at member
    · cases List.mem_singleton.1 member
      rfl
    · cases member
  | parameter option =>
    cases option with
    | directoryAlias =>
      obtain ⟨entry, -, rfl⟩ := List.mem_map.1 member
      rfl
    | _ =>
      cases List.mem_singleton.1 member
      rfl

/-- Options that hold the same in every slot are the same, so `settingsIn` forgets nothing. -/
theorem eq_of_settingsIn {other : GenerateOptions}
    (same : ∀ slot ∈ Command.generate.slots, options.settingsIn slot = other.settingsIn slot) :
    options = other := by
  have flags : ∀ option ∈ Command.generate.switches, options.flag option = other.flag option := by
    intro option member
    have held := same (.switch option) (Command.switch_mem_slots_iff.2 member)
    dsimp only [settingsIn] at held
    cases first : options.flag option <;> cases second : other.flag option <;> simp_all
  have aliases : options.aliases = other.aliases :=
    (List.map_inj_right fun _ _ => Setting.directoryAlias.inj).1
      (same (.parameter .directoryAlias) (by decide))
  obtain ⟨⟩ := options
  obtain ⟨⟩ := other
  cases aliases
  -- each other field is read off its slot
  cases same .classId (by decide)
  cases same (.parameter .values) (by decide)
  cases same (.parameter .inNamespace) (by decide)
  cases same (.parameter .author) (by decide)
  cases same (.parameter .description) (by decide)
  cases same (.parameter .start) (by decide)
  cases same (.parameter .outDir) (by decide)
  cases same (.parameter .indent) (by decide)
  cases flags .sort (by decide)
  cases flags .stdout (by decide)
  cases flags .dryRun (by decide)
  cases flags .diff (by decide)
  cases flags .overwrite (by decide)
  rfl

/-- What one more `setting` puts into `slot`. Other slots hold what they did. -/
theorem settingsIn_apply (known : slot ∈ Command.generate.slots) (options : GenerateOptions)
    (setting : Setting) :
    (options.apply setting).settingsIn slot =
      if setting.slot = slot then slot.put (options.settingsIn slot) setting
      else options.settingsIn slot := by
  cases slot with
  | classId =>
    cases setting with
    | switch option => cases option <;> rfl
    | _ => rfl
  | switch option =>
    dsimp only [settingsIn]
    rw [flag_apply (Command.switch_mem_slots_iff.1 known)]
    by_cases same : setting.slot = .switch option
    · obtain rfl : setting = .switch option := by
        cases setting <;> cases same
        rfl
      simp [same, Slot.put, Slot.repeats]
    · simp [same]
  | parameter option =>
    cases setting with
    | switch other => cases other <;> cases option <;> rfl
    | directoryAlias entry =>
      cases option with
      | directoryAlias => exact List.map_append
      | _ => rfl
    | _ => cases option <;> rfl

/-- What the settings in `made` leave in `slot` depends on those of that slot alone, in their order. -/
theorem settingsIn_foldl_apply (known : slot ∈ Command.generate.slots) (options : GenerateOptions)
    (made : List Setting) :
    (made.foldl apply options).settingsIn slot =
      (made.filter (·.slot = slot)).foldl slot.put (options.settingsIn slot) := by
  induction made generalizing options with
  | nil => rfl
  | cons setting rest ih =>
    rw [List.foldl_cons, ih, settingsIn_apply known, List.filter_cons]
    by_cases same : setting.slot = slot <;> simp [same]

/-! ## All slots -/

theorem nodup_slots : Command.generate.slots.Nodup := by decide

/-- Unless settings of `slot` repeat, it holds one at most. -/
theorem settingsIn_cases (single : slot.repeats = false) (options : GenerateOptions) :
    options.settingsIn slot = [] ∨ ∃ setting, options.settingsIn slot = [setting] := by
  cases slot with
  | classId => exact .inr ⟨_, rfl⟩
  | switch option =>
    dsimp only [settingsIn]
    split
    · exact .inr ⟨_, rfl⟩
    · exact .inl rfl
  | parameter option =>
    cases option with
    | directoryAlias => cases single
    | _ => exact .inr ⟨_, rfl⟩

/-- Among all of `options.settings`, those of a slot are found again. -/
theorem filter_settings (known : slot ∈ Command.generate.slots) (options : GenerateOptions) :
    options.settings.filter (·.slot = slot) = options.settingsIn slot := by
  -- other slots have nothing to do with it
  have others : ∀ {slots : List Slot}, slot ∉ slots →
      (slots.flatMap options.settingsIn).filter (·.slot = slot) = [] := by
    intro slots absent
    refine List.filter_eq_nil_iff.2 fun setting member same => absent ?_
    obtain ⟨other, inside, held⟩ := List.mem_flatMap.1 member
    rw [← of_decide_eq_true same, slot_of_mem_settingsIn held]
    exact inside
  have own : (options.settingsIn slot).filter (·.slot = slot) = options.settingsIn slot :=
    List.filter_eq_self.2 fun setting member => decide_eq_true (slot_of_mem_settingsIn member)
  obtain ⟨before, after, split⟩ := List.append_of_mem known
  have distinct := nodup_slots
  rw [split, List.nodup_middle, List.nodup_cons, List.mem_append, not_or] at distinct
  obtain ⟨⟨ahead, behind⟩, -⟩ := distinct
  rw [settings, split, List.flatMap_append, List.flatMap_cons, List.filter_append, List.filter_append,
    others ahead, own, others behind, List.nil_append, List.append_nil]

/-- All settings of `options` can be made together, since no two are about a slot that does not repeat. -/
theorem pairwise_settings (options : GenerateOptions) : options.settings.Pairwise Setting.Apart := by
  refine List.pairwise_flatMap.2 ⟨fun slot known => ?_, nodup_slots.imp ?_⟩
  · cases repeats : slot.repeats with
    | false =>
      rcases settingsIn_cases repeats options with none | ⟨setting, one⟩
      · rw [none]
        exact .nil
      · rw [one]
        exact List.pairwise_singleton _ _
    | true =>
      refine List.pairwise_of_forall_mem_list fun first _ second inside _ => ?_
      rw [slot_of_mem_settingsIn inside, repeats]
  · intro slot other different first member second inside same
    rw [slot_of_mem_settingsIn member, slot_of_mem_settingsIn inside] at same
    exact absurd same different

/-! ## Settings in some order -/

/-- The options before anything is set. -/
def unset : GenerateOptions := { classId := "", values := "" }

/-- Settings of what `options` hold in `slot` put just that there, if nothing has been set before. -/
theorem foldl_put_settingsIn (slot : Slot) (options : GenerateOptions) :
    (options.settingsIn slot).foldl slot.put (unset.settingsIn slot) = options.settingsIn slot := by
  cases slot with
  | classId => rfl
  | switch option =>
    have clear : unset.flag option = false := by cases option <;> rfl
    dsimp only [settingsIn]
    rw [clear]
    cases options.flag option <;> rfl
  | parameter option =>
    cases option with
    | directoryAlias =>
      have grown : ∀ made held : List Setting,
          made.foldl (Slot.put (.parameter .directoryAlias)) held = held ++ made := by
        intro made
        induction made with
        | nil => exact fun held => (List.append_nil held).symm
        | cons setting rest ih =>
          intro held
          rw [List.foldl_cons, ih]
          exact List.append_assoc held [setting] rest
      exact grown _ []
    | _ => rfl

/-- The `setting` is made before anything is set, and need not be repeated: no class id and no value list, which
are required. -/
def IsImplied (setting : Setting) : Prop :=
  setting ∈ unset.settings ∧ setting.slot ≠ .classId ∧ setting.slot ≠ .parameter .values

instance : DecidablePred IsImplied := fun setting =>
  inferInstanceAs (Decidable (setting ∈ unset.settings ∧ setting.slot ≠ .classId ∧
    setting.slot ≠ .parameter .values))

/-- The settings in `made` are those of `options` in some order, but the aliases in theirs. Some of them can be
left out that are implied. The directory has to be if there are aliases. -/
structure Arranges (options : GenerateOptions) (made : List Setting) : Prop where
  /-- Together with those that are left out, they are all settings of `options`. -/
  complete : ∃ leftOut, (made ++ leftOut).Perm options.settings ∧
    ∀ setting ∈ leftOut, IsImplied setting
  /-- The aliases are in order. -/
  aliases : made.filter (·.slot = .parameter .directoryAlias) = options.aliases.map .directoryAlias
  /-- No directory is set beside them. -/
  directory : options.aliases ≠ [] → isSet made (.parameter .outDir) = false

/-- Nothing is set in `slot` exactly if no setting is about it. -/
theorem isSet_eq_false_iff : isSet made slot = false ↔ made.filter (·.slot = slot) = [] := by
  simp [isSet, List.filter_eq_nil_iff]

/-- There is such an order of the settings if the directory is the one of `unset` beside aliases. -/
theorem exists_arranges (implied : options.aliases ≠ [] → options.outDir = unset.outDir) :
    ∃ made, options.Arranges made := by
  have aliases : options.settings.filter (·.slot = .parameter .directoryAlias) =
      options.aliases.map .directoryAlias := filter_settings (by decide) options
  by_cases none : options.aliases = []
  · exact ⟨options.settings, ⟨[], by simp, by simp⟩, aliases, fun some => absurd none some⟩
  · -- all settings but the directory
    refine ⟨options.settings.filter fun setting => !decide (setting.slot = .parameter .outDir), ?_, ?_,
      fun _ => ?_⟩
    · refine ⟨options.settings.filter (·.slot = .parameter .outDir),
        List.perm_append_comm.trans (List.filter_append_perm _ _), ?_⟩
      rw [filter_settings (by decide)]
      intro setting member
      rw [List.mem_singleton.1 member, implied none]
      decide
    · rw [List.filter_filter, ← aliases]
      refine List.filter_congr fun setting _ => ?_
      by_cases same : setting.slot = .parameter .directoryAlias <;> simp [same]
    · rw [isSet_eq_false_iff, List.filter_filter]
      simp

namespace Arranges

theorem mem_settings (arranged : options.Arranges made) {setting : Setting} (member : setting ∈ made) :
    setting ∈ options.settings := by
  obtain ⟨leftOut, whole, -⟩ := arranged.complete
  exact whole.subset (List.mem_append_left leftOut member)

/-- In each `slot` there is what the options hold there, or nothing if that is implied. -/
theorem filter_cases (arranged : options.Arranges made) (known : slot ∈ Command.generate.slots) :
    made.filter (·.slot = slot) = options.settingsIn slot ∨
      made.filter (·.slot = slot) = [] ∧ options.settingsIn slot = unset.settingsIn slot ∧
        slot ≠ .classId ∧ slot ≠ .parameter .values := by
  obtain ⟨leftOut, whole, implied⟩ := arranged.complete
  cases repeats : slot.repeats with
  | true =>
    obtain rfl : slot = .parameter .directoryAlias := by simpa [Slot.repeats] using repeats
    exact .inl arranged.aliases
  | false =>
    have split := whole.filter (·.slot = slot)
    rw [List.filter_append, filter_settings known] at split
    rcases settingsIn_cases repeats options with none | ⟨setting, one⟩
    · rw [none, List.perm_nil, List.append_eq_nil_iff] at split
      exact .inl (split.1.trans none.symm)
    · -- the one setting of the slot is made or left out
      rw [one, List.perm_singleton, List.append_eq_singleton_iff] at split
      rcases split with ⟨absent, out⟩ | ⟨present, -⟩
      · right
        obtain ⟨member, same⟩ := List.mem_filter.1 (out ▸ List.mem_singleton_self setting)
        have same : setting.slot = slot := of_decide_eq_true same
        obtain ⟨initial, optional⟩ := implied setting member
        -- what is left out is what the slot holds from the start
        have held : setting ∈ unset.settingsIn slot := by
          rw [← filter_settings known]
          exact List.mem_filter.2 ⟨initial, decide_eq_true same⟩
        refine ⟨absent, ?_, same ▸ optional⟩
        rcases settingsIn_cases repeats unset with none | ⟨other, alone⟩
        · rw [none] at held
          cases held
        · rw [alone, List.mem_singleton] at held
          rw [one, alone, held]
      · exact .inl (present.trans one.symm)

theorem pairwise_apart (arranged : options.Arranges made) : made.Pairwise Setting.Apart := by
  obtain ⟨leftOut, whole, -⟩ := arranged.complete
  have symmetric : ∀ {first second : Setting}, first.Apart second → second.Apart first :=
    fun apart same => same ▸ apart same.symm
  have together := (whole.pairwise_iff symmetric).2 (pairwise_settings options)
  exact together.sublist (List.sublist_append_left made leftOut)

/-- Taken in any order that `Arranges` allows, the settings lead to `options`. -/
theorem foldl_apply_eq (arranged : options.Arranges made) : made.foldl apply unset = options := by
  refine eq_of_settingsIn fun slot known => ?_
  rw [settingsIn_foldl_apply known]
  rcases arranged.filter_cases known with all | ⟨none, same, -⟩
  · rw [all, foldl_put_settingsIn]
  · rw [none, same]
    rfl

/-- Any settings that `Arranges` allows make up `options`. -/
theorem ofSettings_eq_ok (arranged : options.Arranges made) : ofSettings made = .ok options := by
  refine ofSettings_eq_ok_iff.2 ⟨?_, ?_, arranged.foldl_apply_eq⟩
  · by_cases none : options.aliases = []
    · have absent : isSet made (.parameter .directoryAlias) = false :=
        isSet_eq_false_iff.2 (arranged.aliases.trans (none ▸ rfl))
      rw [absent, Bool.and_false]
    · rw [arranged.directory none, Bool.false_and]
  · -- what is required has not been left out
    have required : ∀ slot ∈ Command.generate.slots, slot = .classId ∨ slot = .parameter .values →
        isSet made slot = true := by
      intro slot known kind
      rw [← Bool.not_eq_false, isSet_eq_false_iff]
      rcases arranged.filter_cases known with all | ⟨-, -, other, other'⟩
      · rw [all]
        rcases kind with rfl | rfl <;> exact List.cons_ne_nil _ _
      · rcases kind with rfl | rfl <;> contradiction
    rw [required .classId (by decide) (.inl rfl), required _ (by decide) (.inr rfl)]
    rfl

end Arranges

end GenerateOptions

end LabelledEnum.CommandLine
