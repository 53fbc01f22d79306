import LabelledEnum.CommandLine.Item

/-!
# Arguments

The arguments of a command are read in order, and the first one at fault decides why they are rejected.

* `addSwitch`, `addParameter`: the settings with one option more.
* `refusal?`: the arguments that are rejected whatever comes before them.
* `settings`: what the words after a command set.
* `isSet`: whether something is set.
-/

namespace LabelledEnum.CommandLine

/-- Whether `settings` leave no place for another one in `slot`. -/
def isTaken (settings : List Setting) (slot : Slot) : Bool :=
  !slot.repeats && settings.any (·.slot = slot)

/-- Whether `settings` leave a place for a class id, and `command` has one. -/
def awaitsClassId (command : Command) (settings : List Setting) : Bool :=
  command.takesClassId && !isTaken settings .classId

/-- The `settings` with `option` switched on, unless it is already. -/
def addSwitch (settings : List Setting) (option : Switch) : Except Misuse (List Setting) :=
  if isTaken settings (.switch option) then .error .conflict
  else .ok (settings ++ [.switch option])

/-- The `settings` with the value of `option`, which has to be there, to be the only one and to be legible, in
this order. -/
def addParameter (settings : List Setting) (option : Parameter) :
    Option Text → Except Misuse (List Setting)
  | none => .error .missingValue
  | some value =>
    if isTaken settings (.parameter option) then .error .conflict
    else (option.read value).map fun setting => settings ++ [setting]

/-- Why the argument is rejected whatever comes before it, if it is: it is not understood, or it is one too many
after `settings`. -/
def refusal? (command : Command) (settings : List Setting) : Item → Option Misuse
  | .refused misuse => some misuse
  | .plain _ => if awaitsClassId command settings then none else some .unknownArgument
  | _ => none

/-- What the arguments set, after the `settings` already made. An option with its value in a word of its own is
looked at together with the next argument, whose rejection comes first. -/
def settingsFrom (command : Command) (settings : List Setting) :
    List Item → Except Stop (List Setting)
  | [] => .ok settings
  | .refused misuse :: _ => .error (.misuse misuse)
  | .help :: _ => .error .help
  | .plain word :: rest =>
    if awaitsClassId command settings then
      settingsFrom command (settings ++ [.classId word]) rest
    else .error (.misuse .unknownArgument)
  | .switch option :: rest =>
    match addSwitch settings option with
    | .error misuse => .error (.misuse misuse)
    | .ok after => settingsFrom command after rest
  | .attached option value :: rest =>
    match addParameter settings option (some value) with
    | .error misuse => .error (.misuse misuse)
    | .ok after => settingsFrom command after rest
  | .spaced option value :: rest =>
    match rest.head?.bind (refusal? command settings) with
    | some misuse => .error (.misuse misuse)
    | none =>
      match addParameter settings option value with
      | .error misuse => .error (.misuse misuse)
      | .ok after => settingsFrom command after rest

/-- What the `words` after `command` set. -/
def settings (command : Command) (words : List Text) : Except Stop (List Setting) :=
  settingsFrom command [] (items command words)

/-- Whether something is set in `slot`. -/
def isSet (settings : List Setting) (slot : Slot) : Bool := settings.any (·.slot = slot)

end LabelledEnum.CommandLine
