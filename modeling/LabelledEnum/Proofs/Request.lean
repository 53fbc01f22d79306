import LabelledEnum.Proofs.ClassId.Language
import LabelledEnum.Proofs.Result
import LabelledEnum.Request

/-!
# Checked requests

* `Request.check_eq_ok_iff`: which requests pass the check, and as what.
* `Request.check_eq_error_iff`: which requests are rejected, and why.
* `ClassId.parseUnreserved_eq_ok_iff`, `ClassId.parseUnreserved_eq_error_iff`: the same for their class ids.
* `Request.values_blank_of_check`: the value list is reported missing only when it is blank.
-/

namespace LabelledEnum

/-- With `check`, a request passes exactly when its class id and its value list are not blank, it has a first
value, and its class id is one that does not name a reserved class. What comes out as `checked` is the request
without the blanks around its fields. -/
theorem Request.check_eq_ok_iff {request : Request} {checked : CheckedRequest} :
    request.check = .ok checked ↔
      request.classId.trim ≠ [] ∧ request.values.trim ≠ [] ∧
      ClassId.parseUnreserved request.classId.trim = .ok checked.classId ∧
      request.start = some checked.start ∧
      checked.values = request.values.trim ∧
      checked.inNamespace = Namespace.parse request.inNamespace ∧
      checked.author = request.author ∧
      checked.description = request.description.trim ∧
      checked.sort = request.sort := by
  unfold Request.check
  constructor
  · intro check
    split at check
    · cases check
    · next classId =>
      split at check
      · cases check
      · next values =>
        split at check
        · cases check
        · next start given =>
          obtain ⟨id, parsed, filled⟩ := Except.bind_eq_ok_iff.1 check
          cases filled
          exact ⟨classId, values, parsed, given, rfl, rfl, rfl, rfl, rfl⟩
  · rintro ⟨classId, values, parsed, start, list, space, author, description, sort⟩
    rw [if_neg classId, if_neg values, start]
    refine Except.bind_eq_ok_iff.2 ⟨checked.classId, parsed, ?_⟩
    rw [← list, ← space, ← author, ← description, ← sort]
    rfl

/-- A `request` is rejected for the first thing that is wrong with it, in the order in which `check` looks at
its fields. -/
theorem Request.check_eq_error_iff {request : Request} {rejection : Rejection} :
    request.check = .error rejection ↔
      request.classId.trim = [] ∧ rejection = .blank .classId ∨
      (request.classId.trim ≠ [] ∧ request.values.trim = [] ∧ rejection = .blank .values) ∨
      (request.classId.trim ≠ [] ∧ request.values.trim ≠ [] ∧ request.start = none ∧
        rejection = .blank .start) ∨
      (request.classId.trim ≠ [] ∧ request.values.trim ≠ [] ∧ request.start ≠ none ∧
        ClassId.parseUnreserved request.classId.trim = .error rejection) := by
  unfold Request.check
  -- one check after the other is passed
  split
  · next empty =>
    rw [Except.error.injEq, eq_comm]
    simp [empty]
  · next classId =>
    split
    · next empty =>
      rw [Except.error.injEq, eq_comm]
      simp [classId, empty]
    · next values =>
      split
      · next missing =>
        rw [Except.error.injEq, eq_comm]
        simp [classId, values, missing]
      · next start given =>
        rw [Except.bind_eq_error_iff]
        simp [classId, values, given, pure, Except.pure]

/-- With `parseUnreserved`, the class id that `text` spells is accepted unless its class name is reserved. -/
theorem ClassId.parseUnreserved_eq_ok_iff {text : Text} {id : ClassId} :
    parseUnreserved text = .ok id ↔ text = id.text ∧ isReservedClassName id.className = false := by
  unfold parseUnreserved
  rw [Except.bind_eq_ok_iff]
  constructor
  · rintro ⟨parsed, found, kept⟩
    split at kept
    · cases kept
    · next free =>
      cases kept
      exact ⟨parse_eq_ok_iff.1 found, Bool.eq_false_iff.2 free⟩
  · rintro ⟨spelt, free⟩
    exact ⟨id, parse_eq_ok_iff.2 spelt, by rw [free]; rfl⟩

/-- A class id that `parse` can read is rejected only for its class name. -/
theorem ClassId.parseUnreserved_eq_error_iff {text : Text} {rejection : Rejection} :
    parseUnreserved text = .error rejection ↔
      parse text = .error rejection ∨
      ∃ id : ClassId, text = id.text ∧ isReservedClassName id.className = true ∧
        rejection = .reservedClassName id.className := by
  unfold parseUnreserved
  rw [Except.bind_eq_error_iff]
  refine or_congr_right (exists_congr fun id => ?_)
  rw [parse_eq_ok_iff]
  refine and_congr_right fun _ => ?_
  cases isReservedClassName id.className with
  | false => simp
  | true => simp [eq_comm]

/-- The value list is reported missing only when `request.values` is blank. -/
theorem Request.values_blank_of_check {request : Request}
    (rejected : request.check = .error (.blank .values)) : request.values.trim = [] := by
  rcases check_eq_error_iff.1 rejected with ⟨-, other⟩ | ⟨-, blank, -⟩ | ⟨-, -, -, other⟩ |
    ⟨-, -, -, refused⟩
  · cases other
  · exact blank
  · cases other
  · -- a class id is never rejected for the value list
    rcases ClassId.parseUnreserved_eq_error_iff.1 refused with faulty | ⟨_, -, -, other⟩
    · rcases ClassId.parse_eq_error_iff.1 faulty with ⟨-, other⟩ | ⟨_, -, other⟩
      · cases other
      · cases other
    · cases other

end LabelledEnum
