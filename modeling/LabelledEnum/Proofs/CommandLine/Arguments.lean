import LabelledEnum.CommandLine.Arguments
import LabelledEnum.Proofs.Result

/-!
# Arguments that are accepted

Reading arguments in order succeeds exactly when each of them makes a setting on its own and no two
settings are about the same slot. The order in which faults are found plays no part in that.

* `Item.setting?`: the setting that an argument makes on its own.
* `Setting.Apart`: two settings can be made together.
* `settingsFrom_cons_eq_ok_iff`: what one more argument needs.
* `settings_eq_ok_iff`: when the words after a command are accepted, and what they set.
-/

namespace LabelledEnum.CommandLine

/-- The setting that the argument makes on its own after `command`, if it makes one. -/
def Item.setting? (command : Command) : Item → Option Setting
  | .switch option => some (.switch option)
  | .attached option value => (option.read value).toOption
  | .spaced option value => value.bind fun value => (option.read value).toOption
  | .plain word => if command.takesClassId then some (.classId word) else none
  | .help => none
  | .refused _ => none

/-- The setting `second` can be made after `first`: the two are about different slots, or about one that
repeats. -/
def Setting.Apart (first second : Setting) : Prop :=
  first.slot = second.slot → second.slot.repeats = true

variable {command : Command} {made result : List Setting} {rest : List Item}

/-- What is read as the value of `option` is a setting of that option. -/
theorem slot_of_read {option : Parameter} {value : Text} {setting : Setting}
    (read : option.read value = .ok setting) : setting.slot = .parameter option := by
  -- the fault that reading may end with is translated, and the setting is left as it is
  have mapped : ∀ {Fault Value : Type} {step : Except Fault Value} {make : Value → Setting}
      {fault : Fault → Misuse} {slot : Slot}, (∀ value, (make value).slot = slot) →
      (step.map make).mapError fault = .ok setting → setting.slot = slot := by
    intro _ _ step make fault slot same read
    cases step with
    | error _ => cases read
    | ok value =>
      cases read
      exact same value
  cases option with
  | values => cases read; rfl
  | inNamespace => cases read; rfl
  | author => cases read; rfl
  | description => cases read; rfl
  | start => exact mapped (fun _ => rfl) read
  | outDir =>
    dsimp only [Parameter.read] at read
    split at read
    · cases read
    · cases read
      rfl
  | directoryAlias => exact mapped (fun _ => rfl) read
  | indent => exact mapped (fun _ => rfl) read

/-- One more `setting` leaves `slot` free if it was free, and the setting is of another slot or the slot
repeats. -/
theorem isTaken_concat {setting : Setting} {slot : Slot} :
    isTaken (made ++ [setting]) slot = false ↔
      isTaken made slot = false ∧ (setting.slot = slot → slot.repeats = true) := by
  unfold isTaken
  cases slot.repeats <;> simp

/-- With `addParameter`, a value is accepted if there is one, it can be read, and the slot of its setting is
free. -/
theorem addParameter_eq_ok_iff {option : Parameter} {value : Option Text} :
    addParameter made option value = .ok result ↔
      ∃ setting, (value.bind fun value => (option.read value).toOption) = some setting ∧
        isTaken made setting.slot = false ∧ made ++ [setting] = result := by
  cases value with
  | none => simp [addParameter]
  | some value =>
    rw [addParameter, Option.bind_some]
    cases read : option.read value with
    | error misuse =>
      -- an option that cannot be read is rejected, whether its slot is taken or not
      split <;> simp [Except.map, Except.toOption]
    | ok setting =>
      simp only [Except.toOption, Option.some.injEq, exists_eq_left', slot_of_read read]
      split
      · next taken => simp [taken]
      · next free => simp [Except.map, Bool.eq_false_iff.2 free]

/-- What comes after `setting` is not rejected for itself if it is accepted after that setting. -/
private theorem refusal?_eq_none {setting : Setting}
    (accepted : settingsFrom command (made ++ [setting]) rest = .ok result) :
    rest.head?.bind (refusal? command made) = none := by
  cases rest with
  | nil => rfl
  | cons item rest =>
    cases item with
    | refused misuse => cases accepted
    | plain word =>
      rw [settingsFrom] at accepted
      split at accepted
      · next awaited =>
        -- a place for a class id that is left after the setting was there before it
        have before : awaitsClassId command made = true := by
          simp only [awaitsClassId, Bool.and_eq_true, Bool.not_eq_true'] at awaited ⊢
          exact ⟨awaited.1, (isTaken_concat.1 awaited.2).1⟩
        simp [refusal?, before]
      · cases accepted
    | switch option => rfl
    | attached option value => rfl
    | spaced option value => rfl
    | help => rfl

/-- One more argument `item` is accepted if it makes a setting whose slot is free, and the others are accepted
after it. -/
theorem settingsFrom_cons_eq_ok_iff {item : Item} :
    settingsFrom command made (item :: rest) = .ok result ↔
      ∃ setting, item.setting? command = some setting ∧ isTaken made setting.slot = false ∧
        settingsFrom command (made ++ [setting]) rest = .ok result := by
  cases item with
  | refused misuse => simp [settingsFrom, Item.setting?]
  | help => simp [settingsFrom, Item.setting?]
  | plain word =>
    rw [settingsFrom]
    by_cases takes : command.takesClassId = true
    · cases taken : isTaken made .classId <;>
        simp [Item.setting?, awaitsClassId, Setting.slot, takes, taken]
    · simp [Item.setting?, awaitsClassId, takes]
  | switch option =>
    rw [settingsFrom, addSwitch]
    cases taken : isTaken made (.switch option) <;> simp [Item.setting?, Setting.slot, taken]
  | attached option value =>
    rw [settingsFrom]
    constructor
    · intro accepted
      split at accepted
      · cases accepted
      · next after added =>
        obtain ⟨setting, read, free, rfl⟩ := addParameter_eq_ok_iff.1 added
        exact ⟨setting, read, free, accepted⟩
    · rintro ⟨setting, read, free, accepted⟩
      have added : addParameter made option (some value) = .ok (made ++ [setting]) :=
        addParameter_eq_ok_iff.2 ⟨setting, read, free, rfl⟩
      rw [added]
      exact accepted
  | spaced option value =>
    rw [settingsFrom]
    constructor
    · intro accepted
      -- neither the next argument nor this one has been rejected
      split at accepted
      · cases accepted
      · split at accepted
        · cases accepted
        · next after added =>
          obtain ⟨setting, read, free, rfl⟩ := addParameter_eq_ok_iff.1 added
          exact ⟨setting, read, free, accepted⟩
    · rintro ⟨setting, read, free, accepted⟩
      have added : addParameter made option value = .ok (made ++ [setting]) :=
        addParameter_eq_ok_iff.2 ⟨setting, read, free, rfl⟩
      -- the next argument is looked at before this one, and is not rejected either
      rw [refusal?_eq_none accepted, added]
      exact accepted

/-- The arguments `items` are accepted after settings exactly when each makes a setting, no two of which are
about the same slot, nor is one about a slot that is taken. -/
theorem settingsFrom_eq_ok_iff {items : List Item} :
    settingsFrom command made items = .ok result ↔
      ∃ new, result = made ++ new ∧ items.map (Item.setting? command) = new.map some ∧
        (∀ setting ∈ new, isTaken made setting.slot = false) ∧ new.Pairwise Setting.Apart := by
  -- the settings made before grow by one at each argument, so the induction is for all of them
  induction items generalizing made with
  | nil =>
    rw [settingsFrom]
    constructor
    · rintro ⟨⟩
      exact ⟨[], by simp⟩
    · rintro ⟨new, rfl, none, -⟩
      obtain rfl : new = [] := by simpa using none.symm
      simp
  | cons item rest ih =>
    rw [settingsFrom_cons_eq_ok_iff]
    constructor
    · rintro ⟨setting, read, free, accepted⟩
      obtain ⟨new, rfl, reads, others, apart⟩ := ih.1 accepted
      -- what is free after the setting is free before it and apart from it
      refine ⟨setting :: new, by simp, by simp [read, reads], ?_, ?_⟩
      · exact List.forall_mem_cons.2
          ⟨free, fun other member => (isTaken_concat.1 (others other member)).1⟩
      · exact List.pairwise_cons.2
          ⟨fun other member => (isTaken_concat.1 (others other member)).2, apart⟩
    · rintro ⟨new, rfl, reads, free, apart⟩
      cases new with
      | nil => cases reads
      | cons setting new =>
        obtain ⟨read, reads⟩ := List.cons.inj reads
        rw [List.forall_mem_cons] at free
        rw [List.pairwise_cons] at apart
        refine ⟨setting, read, free.1, ih.2 ⟨new, by simp, reads, ?_, apart.2⟩⟩
        exact fun other member => isTaken_concat.2 ⟨free.2 other member, apart.1 other member⟩

/-- The words after `command` are accepted exactly when each argument makes a setting and no two settings are
about the same slot. -/
theorem settings_eq_ok_iff {words : List Text} :
    settings command words = .ok result ↔
      (items command words).map (Item.setting? command) = result.map some ∧
        result.Pairwise Setting.Apart := by
  rw [settings, settingsFrom_eq_ok_iff]
  simp [isTaken]

end LabelledEnum.CommandLine
