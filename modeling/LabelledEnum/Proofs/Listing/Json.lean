import LabelledEnum.Proofs.Constant
import LabelledEnum.Proofs.Listing.Token
import LabelledEnum.Proofs.Result

/-!
# Reading constants from JSON

* `Json.readArray?`, `Json.readArray?_arrayTokens`: the objects that the tokens of an array spell.
* `Listing.readJson?`, `Listing.readJson?_json`: the objects that a text spells, and those of an array of
  constants.
* `Listing.readRows?`, `Listing.readRows?_json`: the rows that these objects show.
-/

namespace LabelledEnum

namespace Json

open Listing

/-! ## Arrays of objects -/

/-- An object: its keys with their values, in order. -/
abbrev Object := List (Text × Datum)

/-- The objects that tokens spell after the keys of the first object that have been `read` already, up to the
end of the array. -/
def readObjects? (read : Object) : List Token → Option (List Object)
  | .datum (.string key) :: .colon :: .datum value :: .comma :: tokens =>
    readObjects? (read ++ [(key, value)]) tokens
  | .datum (.string key) :: .colon :: .datum value :: .closeObject :: .comma :: .openObject :: tokens =>
    (readObjects? [] tokens).map ((read ++ [(key, value)]) :: ·)
  | [.datum (.string key), .colon, .datum value, .closeObject, .closeArray] =>
    some [read ++ [(key, value)]]
  | _ => none

/-- The objects of the array that tokens spell, by `readObjects?`. Each object has at least one key. -/
def readArray? : List Token → Option (List Object)
  | [.openArray, .closeArray] => some []
  | .openArray :: .openObject :: tokens => readObjects? [] tokens
  | _ => none

/-- The tokens of a key with its value, as `entry` pairs them. -/
def entryTokens (entry : Text × Datum) : List Token :=
  [.datum (.string entry.1), .colon, .datum entry.2]

/-- The tokens of `object`. -/
def objectTokens (object : Object) : List Token :=
  .openObject :: (List.intercalate [.comma] (object.map entryTokens) ++ [.closeObject])

/-- The tokens of an array of `objects`. -/
def arrayTokens (objects : List Object) : List Token :=
  .openArray :: (List.intercalate [.comma] (objects.map objectTokens) ++ [.closeArray])

/-- All keys of `object` are read up to its end, whatever follows it. -/
private theorem readObjects?_intercalate {tokens : List Token}
    (next : Object → Option (List Object))
    (ends : ∀ read entry, readObjects? read (entryTokens entry ++ .closeObject :: tokens) =
      next (read ++ [entry])) {object : Object} (filled : object ≠ []) (read : Object) :
    readObjects? read (List.intercalate [.comma] (object.map entryTokens) ++
      .closeObject :: tokens) = next (read ++ object) := by
  induction object generalizing read with
  | nil => exact absurd rfl filled
  | cons entry others ih =>
    cases others with
    | nil => exact ends read entry
    | cons following others =>
      have later := ih (List.cons_ne_nil following others) (read ++ [entry])
      rw [List.append_assoc, List.singleton_append] at later
      rw [List.map_cons, List.map_cons, List.intercalate_cons_cons, ← List.map_cons]
      exact later

/-- An array of `objects` is read from its tokens. -/
theorem readArray?_arrayTokens {objects : List Object} (filled : ∀ object ∈ objects, object ≠ []) :
    readArray? (arrayTokens objects) = some objects := by
  induction objects with
  | nil => rfl
  | cons object others ih =>
    rw [List.forall_mem_cons] at filled
    cases others with
    | nil =>
      have single : arrayTokens [object] =
          .openArray :: .openObject :: (List.intercalate [.comma] (object.map entryTokens) ++
            .closeObject :: [.closeArray]) := by
        simp [arrayTokens, objectTokens]
      rw [single]
      exact readObjects?_intercalate (fun read => some [read]) (fun _ _ => rfl) filled.1 []
    | cons following others =>
      -- the array of the other objects, after its two opening tokens
      let tokens := List.intercalate [.comma] ((List.intercalate [.comma]
        (following.map entryTokens) ++ [.closeObject]) :: others.map objectTokens) ++ [.closeArray]
      have rest : arrayTokens (following :: others) = .openArray :: .openObject :: tokens := by
        rw [arrayTokens, List.map_cons, objectTokens, List.intercalate_cons_cons_left]
        rfl
      have all : arrayTokens (object :: following :: others) =
          .openArray :: .openObject :: (List.intercalate [.comma] (object.map entryTokens) ++
            .closeObject :: .comma :: .openObject :: tokens) := by
        rw [arrayTokens, List.map_cons, List.map_cons, List.intercalate_cons_cons, objectTokens,
          objectTokens, List.intercalate_cons_cons_left]
        simp [tokens]
      have read := ih filled.2
      rw [rest] at read
      rw [all]
      refine (readObjects?_intercalate (fun read => (readObjects? [] tokens).map (read :: ·))
        (fun _ _ => rfl) filled.1 []).trans ?_
      exact congrArg (Option.map (object :: ·)) read

end Json

/-! ## Constants -/

namespace Listing

open Json

theorem scansBefore_entryText (entry : Text × Datum) :
    ScansBefore (entryText entry) (entryTokens entry) := by
  have indented : Scans ("    " : Text) [] := scans_of_scan? (by decide) (by decide)
  have colon : Scans (": " : Text) [.colon] := scans_of_scan? (by decide) (by decide)
  exact ((indented.append (scans_quote entry.1)).append colon).append_before
    (scansBefore_datum entry.2)

/-- The text of the object of `constant` has the tokens of its entries. -/
theorem scans_object (start : Int) (constant : Constant) :
    Scans (object start constant) (objectTokens (entries start constant)) := by
  have opens : Scans ("  \x7b\n" : Text) [.openObject] := scans_of_scan? (by decide) (by decide)
  have closes : Scans ("\n  \x7d" : Text) [.closeObject] := scans_of_scan? (by decide) (by decide)
  exact (opens.append_before (scansBefore_intercalate _ scansBefore_entryText)).append closes
    (by decide)

/-- An array of `constants` has the tokens of an array of their objects. -/
theorem scans_json (start : Int) (constants : List Constant) :
    Scans (json start constants) (arrayTokens (constants.map (entries start))) := by
  unfold json
  split
  · next none =>
    rw [List.isEmpty_iff.1 none]
    exact scans_of_scan? (by decide) rfl
  · have opens : Scans ("[\n" : Text) [.openArray] := scans_of_scan? (by decide) (by decide)
    have closes : Scans ("\n]" : Text) [.closeArray] := scans_of_scan? (by decide) (by decide)
    have objects := scansBefore_intercalate constants fun constant =>
      (scans_object start constant).scansBefore
    rw [arrayTokens, List.map_map]
    exact (opens.append_before objects).append closes (by decide)

/-- The objects of the array that `text` spells. -/
def readJson? (text : Text) : Option (List Object) := (scan? text).bind readArray?

/-- An array of `constants` spells one object for each constant, with blanks after it or without. -/
theorem readJson?_json (start : Int) (constants : List Constant) {after : Text}
    (blank : scan? after = some []) :
    readJson? (json start constants ++ after) = some (constants.map (entries start)) := by
  have scanned : scan? (json start constants ++ after) =
      some (arrayTokens (constants.map (entries start))) := by
    have read := scans_json start constants after
    rw [scan?] at blank ⊢
    rw [read, blank, Option.map_some, List.append_nil]
  have filled : ∀ object ∈ constants.map (entries start), object ≠ [] := by
    intro object member
    obtain ⟨constant, -, rfl⟩ := List.mem_map.1 member
    exact List.cons_ne_nil _ _
  rw [readJson?, scanned, Option.bind_some, readArray?_arrayTokens filled]

/-- The integer that a datum stands for: a number, or a string of its digits. -/
def Datum.integer? : Datum → Option Int
  | number n => some n
  | string text => Text.readInt? text

/-- The text that a datum stands for. -/
def Datum.text? : Datum → Option Text
  | number _ => none
  | string text => some text

/-- The value `n` stands for itself, whether it fits in 64 bits or not. -/
theorem integer?_valueDatum (n : Int) : (valueDatum n).integer? = some n := by
  unfold valueDatum
  split
  · rfl
  · exact Text.readInt?_eq_some_iff.2 rfl

/-- The datum under the key `key` of `object`. -/
def datumOf? (object : Object) (key : Text) : Option Datum := object.lookup key

/-- The row that `object` shows under the keys of a constant. -/
def rowOf? (object : Object) : Option Row := do
  let name ← (datumOf? object "name").bind Datum.text?
  let value ← (datumOf? object "value").bind Datum.integer?
  let label ← (datumOf? object "label").bind Datum.text?
  return ⟨name, value, label⟩

/-- What stands under the keys of `constant`, where `datumOf?` finds it. -/
theorem datumOf?_entries (start : Int) (constant : Constant) :
    datumOf? (entries start constant) "identifier" = some (.string constant.identifier) ∧
      datumOf? (entries start constant) "name" = some (.string constant.name) ∧
      datumOf? (entries start constant) "value" = some (valueDatum (constant.value start)) ∧
      datumOf? (entries start constant) "label" = some (.string constant.label) :=
  ⟨rfl, rfl, rfl, rfl⟩

/-- The object of `constant` shows the constant. -/
theorem rowOf?_entries (start : Int) (constant : Constant) :
    rowOf? (entries start constant) = some (constant.row start) := by
  obtain ⟨-, name, value, label⟩ := datumOf?_entries start constant
  rw [rowOf?, name, value, label, Option.bind_some, Option.bind_some, Option.bind_some,
    integer?_valueDatum]
  rfl

/-- The rows that the objects of an array show, if `text` spells one. -/
def readRows? (text : Text) : Option (List Row) := (readJson? text).bind (·.mapM rowOf?)

/-- An array of `constants` shows its constants, with blanks after it or without. -/
theorem readRows?_json (start : Int) (constants : List Constant) {after : Text}
    (blank : scan? after = some []) :
    readRows? (json start constants ++ after) = some (rows start constants) := by
  rw [readRows?, readJson?_json start constants blank, Option.bind_some]
  exact mapM_map_of_some fun constant _ => rowOf?_entries start constant

-- neither the layout nor the order of the keys matters
example : readRows? "[\x7b\"value\":-7, \"label\":\"\\u0041\\/b\",\n\"name\" :\"A_B\"\x7d]" =
    some [⟨"A_B", -7, "A/b"⟩] := by
  decide +kernel

end Listing

end LabelledEnum
