import LabelledEnum.Namespace
import LabelledEnum.Proofs.Text.Blank
import LabelledEnum.Proofs.Text.Split

/-!
# Namespaces that have been spelt

A namespace is displayed in one way, however it was spelt, and the way in which it is displayed spells it again.

* `Namespace.IsSegment`, `Namespace.isSegment_of_mem_segments`: the segments of a namespace that has been spelt.
* `Namespace.parse_display`: a namespace with such segments is spelt by its display.
* `Namespace.segments_parse_append`, `Namespace.segments_parse_of_whole`: a text with a separator in it, and one
  without.
* `Namespace.display_eq_nil_iff`: only a namespace without segments has nothing to display.
* `Namespace.parse_compositional`: all of this together.
-/

namespace LabelledEnum.Namespace

variable {text segment : Text} {space : Namespace}

/-- What `parse` takes for a segment: a text that can stand between two separators of a namespace and counts
there. -/
structure IsSegment (segment : Text) : Prop where
  /-- It is not left out. -/
  ne_nil : segment ≠ []
  /-- Nothing is cut off from it. -/
  trim_eq : segment.trim = segment
  /-- It is not taken apart. -/
  whole : ∀ c ∈ segment, isSeparator c = false

/-- No blank separates segments, so `trim` and a cut at `isSeparator` do not interfere. -/
theorem isSeparator_of_isBlank {c : Char} (blank : isBlank c = true) : isSeparator c = false := by
  refine Bool.eq_false_iff.2 fun separates => ?_
  simp only [isSeparator, Bool.or_eq_true, beq_iff_eq] at separates
  rcases separates with (rfl | rfl) | rfl <;> exact absurd blank (by decide)

/-- The segments of `text` are its trimmed pieces that are not empty. The blanks around a namespace are blanks
around its first and its last segment. -/
theorem segments_parse (text : Text) :
    (parse text).segments = ((text.splitOnP isSeparator).map Text.trim).filter (· ≠ []) := by
  rw [parse, Text.map_trim_splitOnP_trim fun _ => isSeparator_of_isBlank]

/-- What `parse` finds are segments as `IsSegment` describes them. -/
theorem isSegment_of_mem_segments (member : segment ∈ (parse text).segments) : IsSegment segment := by
  rw [segments_parse] at member
  obtain ⟨trimmed, filled⟩ := List.mem_filter.1 member
  obtain ⟨piece, split, rfl⟩ := List.mem_map.1 trimmed
  exact {
    ne_nil := by simpa using filled
    trim_eq := Text.trim_trim piece
    whole := fun c inside =>
      (Text.of_mem_splitOnP split c ((Text.trim_isInfix piece).subset inside)).2 }

/-- The segments before a separator `c` and those after it follow each other. -/
theorem segments_parse_append {c : Char} (separates : isSeparator c = true) (front back : Text) :
    (parse (front ++ c :: back)).segments = (parse front).segments ++ (parse back).segments := by
  rw [segments_parse, List.splitOnP_append_cons _ _ separates, List.map_append, List.filter_append,
    ← segments_parse, ← segments_parse]

/-- A `text` without separators is a single segment, if anything of it is left without the blanks around it. -/
theorem segments_parse_of_whole (whole : ∀ c ∈ text, isSeparator c = false) :
    (parse text).segments = if text.trim = [] then [] else [text.trim] := by
  rw [segments_parse, List.splitOnP_eq_singleton whole, List.map_singleton, List.filter_singleton]
  by_cases empty : text.trim = [] <;> simp [empty]

/-! ## Display -/

/-- A namespace is spelt by its `display`, if its segments are such as `parse` finds. -/
theorem parse_display (segments : ∀ segment ∈ space.segments, IsSegment segment) :
    parse space.display = space := by
  have spelt : (parse space.display).segments = space.segments := by
    rw [segments_parse, display]
    cases listed : space.segments with
    | nil => rfl
    | cons first others =>
      rw [listed] at segments
      have apart : isSeparator '\\' = true := by decide
      have trimmed : (first :: others).map Text.trim = (first :: others).map id :=
        List.map_congr_left fun segment member => (segments segment member).trim_eq
      rw [Text.splitOnP_intercalate apart (fun segment member => (segments segment member).whole)
        (List.cons_ne_nil first others), trimmed, List.map_id]
      exact List.filter_eq_self.2 fun segment member => by
        simpa using (segments segment member).ne_nil
  exact congrArg Namespace.mk spelt

/-- However a namespace was spelt in `text`, its `display` spells it again. -/
theorem parse_display_parse (text : Text) : parse (parse text).display = parse text :=
  parse_display fun _ => isSegment_of_mem_segments

/-- Segments that are not empty leave something for `display` to show. -/
theorem display_eq_nil_iff (segments : ∀ segment ∈ space.segments, segment ≠ []) :
    space.display = [] ↔ space.segments = [] := by
  rw [display]
  cases listed : space.segments with
  | nil => simp
  | cons first others =>
    rw [listed, List.forall_mem_cons] at segments
    cases others with
    | nil => simpa using segments.1
    | cons second rest => simp

/-! ## Any spelling -/

/-- The characters that are typed between segments are the three for which `isSeparator` holds. -/
theorem isSeparator_iff_mem {c : Char} : isSeparator c = true ↔ c ∈ ['\\', '/', '.'] := by
  simp [isSeparator, or_assoc]

/-- The segments that `parse` finds in `text` are not empty, have no blanks around them and no separators in
them. The segments of two texts with any separator between them follow each other, and a text without separators
is one segment or none. What `display` shows spells the same namespace, and is empty only if there are no
segments. -/
theorem parse_compositional (text : Text) :
    (∀ segment ∈ (parse text).segments, segment ≠ [] ∧ segment.trim = segment ∧
      ∀ separator ∈ ['\\', '/', '.'], separator ∉ segment) ∧
    (∀ separator ∈ ['\\', '/', '.'], ∀ front back : Text,
      (parse (front ++ separator :: back)).segments =
        (parse front).segments ++ (parse back).segments) ∧
    ((∀ separator ∈ ['\\', '/', '.'], separator ∉ text) →
      (parse text).segments = if text.trim = [] then [] else [text.trim]) ∧
    parse (parse text).display = parse text ∧
    ((parse text).display = [] ↔ (parse text).segments = []) := by
  refine ⟨fun segment member => ?_, fun separator listed => ?_, fun none => ?_,
    parse_display_parse text, ?_⟩
  · have spelt := isSegment_of_mem_segments member
    refine ⟨spelt.ne_nil, spelt.trim_eq, fun separator listed inside => ?_⟩
    cases (spelt.whole separator inside).symm.trans (isSeparator_iff_mem.2 listed)
  · exact segments_parse_append (isSeparator_iff_mem.2 listed)
  · refine segments_parse_of_whole fun c inside => Bool.eq_false_iff.2 fun separates => ?_
    exact none c (isSeparator_iff_mem.1 separates) inside
  · exact display_eq_nil_iff fun segment member => (isSegment_of_mem_segments member).ne_nil

/-- Blanks, doubled separators and separators at the ends are nothing that is displayed. -/
example : (parse " /. app\\\u00a0/models . ").display = ("app\\models" : Text) := by decide +kernel

end LabelledEnum.Namespace
