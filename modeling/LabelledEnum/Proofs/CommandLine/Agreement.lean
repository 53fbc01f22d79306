import LabelledEnum.CommandLine.Run
import LabelledEnum.Proofs.CommandLine.Printing
import LabelledEnum.Proofs.Listing.Json
import LabelledEnum.Proofs.Listing.Table
import LabelledEnum.Proofs.Request
import LabelledEnum.Proofs.Source.Reading
import LabelledEnum.Proofs.ValueList.Pieces

/-!
# The two commands agree

The command that shows the constants of a value list takes the list as it is typed, and the command that makes
a class takes it without the blanks around it. Both come to the same constants.

* `NormalizeOptions.readListing?`, `NormalizeOptions.readListing?_listing`: the rows that a listing shows.
* `GenerateOptions.read_source`: the rows that a class declares and labels.
* `listing_agrees_with_class`: they are the same rows.
-/

namespace LabelledEnum.CommandLine

/-! ## Listings -/

/-- The rows that a listing `text` shows, which is JSON if `json` holds and a table otherwise. -/
def NormalizeOptions.readListing? (json : Bool) (text : Text) : Option (List Row) :=
  if json then Listing.readRows? text else Listing.readTable? text

/-- What `options.listing` shows are the constants of the value list. -/
theorem NormalizeOptions.readListing?_listing (options : NormalizeOptions) :
    readListing? options.json options.listing =
      some (rows options.start (ValueList.constants options.values options.sort)) := by
  unfold readListing? listing
  cases options.json with
  | true => exact Listing.readRows?_json _ _ (by decide)
  | false => exact Listing.readTable?_table _ fun _ => ValueList.wordChars_of_mem_constants

/-! ## Classes -/

/-- The body of a class declares exactly the names of `rows`, with their values, and gives exactly these names
their labels, both in the order of the rows. -/
def Declares (body : Text) (rows : List Row) : Prop :=
  ClassBody.declarations body = rows.map (fun row => (row.name, row.value)) ∧
    ClassBody.labels body = rows.map (fun row => (row.name, row.label))

/-- A class declares the constants of the value list that `options` give. -/
theorem GenerateOptions.declares_source {options : GenerateOptions} {request : CheckedRequest}
    (check : options.request.check = .ok request) :
    Declares (ClassBody.ofSource (options.source request))
      (rows options.start (ValueList.constants options.values options.sort)) := by
  obtain ⟨-, -, -, start, values, -, -, -, sort⟩ := Request.check_eq_ok_iff.1 check
  have first : options.start = request.start := Option.some.inj start
  have property : '\n' ∉ options.style.listProperty := by
    change '\n' ∉ ("list" : Text)
    decide
  -- the class is made of the trimmed list, and the blanks around the list do not count
  have source : options.source request = EnumClass.source options.style request
      (ValueList.constants options.values options.sort) := by
    rw [GenerateOptions.source, Generation.source, Generation.constants, values, sort]
    exact congrArg _ (ValueList.constants_trim options.values options.sort)
  have words : ∀ constant ∈ ValueList.constants options.values options.sort,
      ∀ c ∈ constant.identifier, isWordChar c = true :=
    fun _ => ValueList.wordChars_of_mem_constants
  obtain ⟨declared, labelled⟩ := ClassBody.read_ofSource_source words property request
  rw [Declares, source, declared, labelled, rows, List.map_map, List.map_map, first]
  exact ⟨rfl, rfl⟩

/-! ## Agreement -/

/-- Whichever way a value list is shown, with all the blanks around it, the rows are exactly the constants that
the class of `options` declares. The list is reported missing only when there is no row to show. -/
theorem listing_agrees_with_class (options : GenerateOptions) (json : Bool) (disk : Disk) :
    let shown := NormalizeOptions.readListing? json
      (NormalizeOptions.run ⟨options.values, options.sort, options.start, json⟩ disk).stdout
    (∀ request, options.request.check = .ok request →
      ∃ rows, shown = some rows ∧ Declares (ClassBody.ofSource (options.source request)) rows) ∧
    (options.request.check = .error (.blank .values) → shown = some []) := by
  intro shown
  have listed : shown = some (rows options.start
      (ValueList.constants options.values options.sort)) :=
    NormalizeOptions.readListing?_listing ⟨options.values, options.sort, options.start, json⟩
  refine ⟨fun request check => ⟨_, listed, GenerateOptions.declares_source check⟩, fun missing => ?_⟩
  have none : ValueList.constants options.values options.sort = [] :=
    ValueList.constants_of_trim_eq_nil (Request.values_blank_of_check missing) options.sort
  rw [listed, none]
  rfl

/-- Blanks of all kinds around a list and its pieces change nothing, and a list of blanks is missing. -/
theorem listing_agrees_with_class_amid_blanks :
    let options : GenerateOptions :=
      { classId := " plan\t", values := "\u3000Free trial ,PAID,\tfree-trial,2nd!\u00a0"
        author := "*/ const PAID = 7;", start := 9223372036854775806 }
    let missing : GenerateOptions := { classId := "plan", values := " \u2003\n" }
    let shown : List Row :=
      [⟨"FREE_TRIAL", 9223372036854775806, "Free Trial"⟩, ⟨"PAID", 9223372036854775807, "PAID"⟩,
        ⟨"2ND_", 9223372036854775808, "2nd "⟩]
    (∃ request, options.request.check = .ok request ∧
      NormalizeOptions.readListing? true
        (NormalizeOptions.run ⟨options.values, options.sort, options.start, true⟩ .fresh).stdout =
          some shown ∧
      Declares (ClassBody.ofSource (options.source request)) shown) ∧
    missing.request.check = .error (.blank .values) ∧
    NormalizeOptions.readListing? false
      (NormalizeOptions.run ⟨missing.values, missing.sort, missing.start, false⟩ .fresh).stdout =
        some [] := by
  intro options missing shown
  have check : ∃ request, options.request.check = .ok request := ⟨_, rfl⟩
  have blank : missing.request.check = .error (.blank .values) := by decide +kernel
  have listed : NormalizeOptions.readListing? true
      (NormalizeOptions.run ⟨options.values, options.sort, options.start, true⟩ .fresh).stdout =
        some shown := by
    refine (NormalizeOptions.readListing?_listing
      ⟨options.values, options.sort, options.start, true⟩).trans ?_
    decide +kernel
  obtain ⟨request, check⟩ := check
  obtain ⟨rows, read, declared⟩ :=
    (listing_agrees_with_class options true .fresh).1 request check
  cases listed.symm.trans read
  exact ⟨⟨request, check, listed, declared⟩, blank,
    (listing_agrees_with_class missing false .fresh).2 blank⟩

end LabelledEnum.CommandLine
