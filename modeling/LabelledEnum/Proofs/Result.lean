/-!
# Results of steps that can fail

* `Except.map_eq_ok_iff`, `Except.bind_eq_ok_iff`: what has happened when a composed step succeeds.
* `Except.map_eq_error_iff`, `Except.bind_eq_error_iff`: what has happened when it fails.
* `mapM_concat_eq_ok_iff`: what has happened when a step succeeds for several items, of which one is the last.
* `mapM_map_of_some`, `filterMap_map_of_some`: reading back what has been spelt.
-/

namespace LabelledEnum

variable {ε α β : Type} {step : Except ε α} {result : β} {fault : ε}

/-- The value of `f` at a result is there exactly when the result is. -/
theorem Except.map_eq_ok_iff {f : α → β} :
    step.map f = .ok result ↔ ∃ value, step = .ok value ∧ f value = result := by
  cases step <;> simp [Except.map]

theorem Except.map_eq_error_iff {f : α → β} : step.map f = .error fault ↔ step = .error fault := by
  cases step <;> simp [Except.map]

/-- Two steps in a row succeed exactly when `step` does and then `next`. -/
theorem Except.bind_eq_ok_iff {next : α → Except ε β} :
    step >>= next = .ok result ↔ ∃ value, step = .ok value ∧ next value = .ok result := by
  cases step <;> simp [bind, Except.bind]

/-- Two steps in a row fail exactly when `step` does, or `next` after it. -/
theorem Except.bind_eq_error_iff {next : α → Except ε β} :
    step >>= next = .error fault ↔
      step = .error fault ∨ ∃ value, step = .ok value ∧ next value = .error fault := by
  cases step <;> simp [bind, Except.bind]

/-- A step `f` succeeds for all items exactly when it does for those before the `last` one and for that one. -/
theorem mapM_concat_eq_ok_iff {f : α → Except ε β} {items : List α} {last : α} {results : List β} :
    (items ++ [last]).mapM f = .ok results ↔
      ∃ earlier result, items.mapM f = .ok earlier ∧ f last = .ok result ∧
        earlier ++ [result] = results := by
  have single : [last].mapM f = (f last).map fun result => [result] := by
    rw [List.mapM_cons]
    cases f last <;> rfl
  rw [List.mapM_append, single, Except.bind_eq_ok_iff]
  refine exists_congr fun earlier => ?_
  cases f last <;> simp [Except.map, bind, Except.bind, pure, Except.pure]

section

variable {Item Spelling Read : Type} {read : Spelling → Option Read} {spell : Item → Spelling}
  {meaning : Item → Read} {items : List Item}
  (reads : ∀ item ∈ items, read (spell item) = some (meaning item))
include reads

/-- With `read`, items are read back from their spellings if each one is. -/
theorem mapM_map_of_some : (items.map spell).mapM read = some (items.map meaning) := by
  induction items with
  | nil => rfl
  | cons item rest ih =>
    rw [List.forall_mem_cons] at reads
    rw [List.map_cons, List.mapM_cons, reads.1, ih reads.2]
    rfl

/-- With `read`, items are read back from a list in which nothing else can be read. -/
theorem filterMap_map_of_some : (items.map spell).filterMap read = items.map meaning := by
  induction items with
  | nil => rfl
  | cons item rest ih =>
    rw [List.forall_mem_cons] at reads
    rw [List.map_cons, List.filterMap_cons_some reads.1, ih reads.2, List.map_cons]

end

end LabelledEnum
