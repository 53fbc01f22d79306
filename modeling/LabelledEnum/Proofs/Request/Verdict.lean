import LabelledEnum.Proofs.Namespace
import LabelledEnum.Proofs.Request

/-!
# What the check of a request decides

Several things can be wrong with a request at once. The check reports the first of them in a fixed order, and a
request that passes it is written out as one that passes it unchanged.

* `Rejection.Applies`, `Rejection.rank`: what a reason says of a request, and its place in the order.
* `Rejection.Applies.le_rank`, `Rejection.eq_of_applies`: where a reason that applies can stand, and that no two
  of them have the same place.
* `Request.not_applies_of_check`, `Request.applies_of_check`: none applies to a request that passes, and the one
  that is reported is the first.
* `Request.exists_check_eq_ok_iff`: which requests pass.
* `CheckedRequest.toRequest`, `Request.check_toRequest`: a checked request written out.
* `Request.check_verdict`: all of this together.
-/

namespace LabelledEnum

/-! ## Reasons and their order -/

namespace Rejection

/-- What the reason says is the case with `request`. -/
def Applies (request : Request) : Rejection → Prop
  | blank .classId => request.classId.trim = []
  | blank .values => request.values.trim = []
  | blank .start => request.start = none
  | illegalClassId text fault => text = request.classId.trim ∧ ClassId.IsFirstFault text fault
  | reservedClassName className =>
    className = ClassId.camelCase request.classId.trim ∧ isReservedClassName className = true

/-- The number of kinds of reasons that come before this one: the required fields in the order of `Request`,
then the form of the class id, then the class name. -/
def rank : Rejection → Nat
  | blank .classId => 0
  | blank .values => 1
  | blank .start => 2
  | illegalClassId _ _ => 3
  | reservedClassName _ => 4

variable {request : Request} {rejection other : Rejection}

/-- A reason that `applies` comes no earlier than the first kind that is not ruled out. -/
theorem Applies.le_rank (applies : rejection.Applies request) {place : Nat} (last : place ≤ 4)
    (classId : 0 < place → request.classId.trim ≠ [])
    (values : 1 < place → request.values.trim ≠ []) (start : 2 < place → request.start ≠ none)
    (legal : 3 < place → ∀ fault, ¬ClassId.IsFirstFault request.classId.trim fault) :
    place ≤ rejection.rank := by
  refine Nat.le_of_not_lt fun earlier => ?_
  cases rejection with
  | blank field =>
    cases field with
    | classId => exact classId earlier applies
    | values => exact values earlier applies
    | start => exact start earlier applies
  | illegalClassId text fault =>
    obtain ⟨rfl, first⟩ := applies
    exact legal earlier fault first
  | reservedClassName className => exact Nat.not_lt.2 last earlier

/-- Of each kind, at most one reason applies to `request`. -/
theorem eq_of_applies (once : rejection.Applies request) (again : other.Applies request)
    (same : rejection.rank = other.rank) : rejection = other := by
  cases rejection with
  | blank field =>
    cases other with
    | blank field' =>
      have sameField : field = field' := by
        revert same
        cases field <;> cases field' <;> decide
      rw [sameField]
    | illegalClassId text fault => cases field <;> cases same
    | reservedClassName className => cases field <;> cases same
  | illegalClassId text fault =>
    cases other with
    | blank field => cases field <;> cases same
    | illegalClassId text' fault' =>
      obtain ⟨rfl, first⟩ := once
      obtain ⟨rfl, first'⟩ := again
      -- both are the fault that is found in the class id
      rw [ClassId.isFirstFault_iff] at first first'
      cases first.symm.trans first'
      rfl
    | reservedClassName className => cases same
  | reservedClassName className =>
    cases other with
    | blank field => cases field <;> cases same
    | illegalClassId text fault => cases same
    | reservedClassName className' =>
      obtain ⟨rfl, -⟩ := once
      obtain ⟨rfl, -⟩ := again
      rfl

end Rejection

namespace Request

variable {request : Request} {checked : CheckedRequest} {rejection : Rejection}

/-- No reason applies to a request that passes the check, whatever `rejection` says. -/
theorem not_applies_of_check (passed : request.check = .ok checked) :
    ¬rejection.Applies request := by
  obtain ⟨classId, values, parsed, start, -⟩ := check_eq_ok_iff.1 passed
  obtain ⟨spelt, free⟩ := ClassId.parseUnreserved_eq_ok_iff.1 parsed
  intro applies
  cases rejection with
  | blank field =>
    cases field with
    | classId => exact classId applies
    | values => exact values applies
    | start => cases start.symm.trans applies
  | illegalClassId text fault =>
    obtain ⟨rfl, first⟩ := applies
    rw [spelt] at first
    exact checked.classId.not_isFirstFault first
  | reservedClassName className =>
    obtain ⟨rfl, reserved⟩ := applies
    rw [spelt] at reserved
    exact Bool.false_ne_true (free.symm.trans reserved)

/-- The reason `rejection` that is reported applies, and no reason of an earlier kind does. -/
theorem applies_of_check (rejected : request.check = .error rejection) :
    rejection.Applies request ∧
      ∀ other : Rejection, other.Applies request → rejection.rank ≤ other.rank := by
  rcases check_eq_error_iff.1 rejected with ⟨empty, rfl⟩ | ⟨classId, empty, rfl⟩ |
    ⟨classId, values, missing, rfl⟩ | ⟨classId, values, given, refused⟩
  · exact ⟨empty, fun other _ => other.rank.zero_le⟩
  · exact ⟨empty, fun other applies =>
      applies.le_rank (by decide) (fun _ => classId) (by simp [Rejection.rank])
        (by simp [Rejection.rank]) (by simp [Rejection.rank])⟩
  · exact ⟨missing, fun other applies =>
      applies.le_rank (by decide) (fun _ => classId) (fun _ => values) (by simp [Rejection.rank])
        (by simp [Rejection.rank])⟩
  · rcases ClassId.parseUnreserved_eq_error_iff.1 refused with faulty | ⟨id, spelt, reserved, rfl⟩
    · rcases ClassId.parse_eq_error_iff.1 faulty with ⟨empty, -⟩ | ⟨fault, first, rfl⟩
      · exact absurd empty classId
      · exact ⟨⟨rfl, first⟩, fun other applies =>
          applies.le_rank (Nat.le_succ 3) (fun _ => classId) (fun _ => values) (fun _ => given)
            (by simp [Rejection.rank])⟩
    · refine ⟨⟨by rw [spelt]; rfl, reserved⟩, fun other applies =>
        applies.le_rank le_rfl (fun _ => classId) (fun _ => values) (fun _ => given)
          fun _ fault => ?_⟩
      rw [spelt]
      exact id.not_isFirstFault

/-- Which requests pass `check`, with the form of the class id as a regular expression. -/
theorem exists_check_eq_ok_iff :
    (∃ checked, request.check = .ok checked) ↔
      request.classId.trim ∈ ClassId.expression.matches' ∧ request.values.trim ≠ [] ∧
        request.start ≠ none ∧
        isReservedClassName (ClassId.camelCase request.classId.trim) = false := by
  constructor
  · rintro ⟨checked, passed⟩
    obtain ⟨-, values, parsed, start, -⟩ := check_eq_ok_iff.1 passed
    obtain ⟨spelt, free⟩ := ClassId.parseUnreserved_eq_ok_iff.1 parsed
    have accepted := ClassId.mem_expression_iff.2 checked.classId.wellFormed
    rw [spelt, start]
    exact ⟨accepted, values, Option.some_ne_none _, free⟩
  · rintro ⟨accepted, values, given, free⟩
    have wellFormed := ClassId.mem_expression_iff.1 accepted
    obtain ⟨start, given⟩ := Option.ne_none_iff_exists'.1 given
    have parsed : ClassId.parseUnreserved request.classId.trim = .ok ⟨_, wellFormed⟩ :=
      ClassId.parseUnreserved_eq_ok_iff.2 ⟨rfl, free⟩
    exact ⟨⟨⟨_, wellFormed⟩, _, _, _, _, start, _⟩, check_eq_ok_iff.2
      ⟨wellFormed.ne_nil, values, parsed, given, rfl, rfl, rfl, rfl, rfl⟩⟩

end Request

/-! ## Written out again -/

/-- The request that gives the fields of `checked` as they are. -/
def CheckedRequest.toRequest (checked : CheckedRequest) : Request where
  classId := checked.classId.text
  values := checked.values
  inNamespace := checked.inNamespace.display
  author := checked.author
  description := checked.description
  start := some checked.start
  sort := checked.sort

namespace Request

variable {request : Request} {checked : CheckedRequest}

/-- What comes out of the check, which is `checked`, passes it again, and comes out unchanged. -/
theorem check_toRequest (passed : request.check = .ok checked) :
    checked.toRequest.check = .ok checked := by
  obtain ⟨classId, values, parsed, -, list, space, -, description, -⟩ := check_eq_ok_iff.1 passed
  obtain ⟨spelt, free⟩ := ClassId.parseUnreserved_eq_ok_iff.1 parsed
  have sameId : checked.classId.text.trim = checked.classId.text := by
    rw [← spelt, Text.trim_trim]
  have sameValues : checked.values.trim = checked.values := by rw [list, Text.trim_trim]
  have sameSpace : Namespace.parse checked.inNamespace.display = checked.inNamespace := by
    rw [space, Namespace.parse_display_parse]
  have sameDescription : checked.description.trim = checked.description := by
    rw [description, Text.trim_trim]
  refine check_eq_ok_iff.2 ⟨?_, ?_, ?_, rfl, sameValues.symm, sameSpace.symm, rfl,
    sameDescription.symm, rfl⟩
  · rwa [CheckedRequest.toRequest, sameId, ← spelt]
  · rwa [CheckedRequest.toRequest, sameValues, list]
  · rw [CheckedRequest.toRequest, sameId]
    exact ClassId.parseUnreserved_eq_ok_iff.2 ⟨rfl, free⟩

/-- A `request` passes the check exactly when its class id is a word of `ClassId.expression` and names no
reserved class, its value list is not blank, and it has a first value. It is rejected for a reason exactly when
that reason `Applies` and none of an earlier kind does. What comes out of the check passes it again, and comes
out unchanged. -/
theorem check_verdict (request : Request) :
    ((∃ checked, request.check = .ok checked) ↔
      request.classId.trim ∈ ClassId.expression.matches' ∧ request.values.trim ≠ [] ∧
        request.start ≠ none ∧
        isReservedClassName (ClassId.camelCase request.classId.trim) = false) ∧
    (∀ rejection, request.check = .error rejection ↔
      rejection.Applies request ∧
        ∀ other : Rejection, other.Applies request → rejection.rank ≤ other.rank) ∧
    ∀ checked, request.check = .ok checked → checked.toRequest.check = .ok checked := by
  refine ⟨exists_check_eq_ok_iff, fun rejection => ⟨applies_of_check, ?_⟩, fun _ => check_toRequest⟩
  rintro ⟨applies, earliest⟩
  cases verdict : request.check with
  | ok checked => exact absurd applies (not_applies_of_check verdict)
  | error reported =>
    obtain ⟨reportedApplies, reportedEarliest⟩ := applies_of_check verdict
    have samePlace : reported.rank = rejection.rank :=
      Nat.le_antisymm (reportedEarliest rejection applies) (earliest reported reportedApplies)
    rw [Rejection.eq_of_applies reportedApplies applies samePlace]

end Request

end LabelledEnum
