import LabelledEnum.Text.Basic

/-!
# Paths

A path is a text with slashes between the names. Paths are joined and taken apart as texts, without a
look at any file and without bringing them into a normal form.

* `Path.join`: a path continued by another one, which wins if it is absolute.
* `Path.parent?`: the path of the directory that holds what a path names.
* `Path.parent?_isPrefix`: the parent is the beginning of the path.
* `Path.length_parent?_lt`: the parent is shorter than the path.
-/

namespace LabelledEnum.Path

/-- Whether `path` begins at the root, with a slash. -/
def isAbsolute (path : Text) : Bool := path.head? == some '/'

/-- The path `path` continued by `next`. An absolute path takes the place of what it is joined to. -/
def join (path next : Text) : Text :=
  if isAbsolute next then next
  else if path = [] ∨ path.getLast? = some '/' then path ++ next
  else path ++ '/' :: next

/-- The path `path` continued by all `nexts` in order. -/
def joinAll (path : Text) (nexts : List Text) : Text := nexts.foldl join path

/-- Whether `piece`, which stands between slashes, names nothing below the directory before it. -/
def isIdle (piece : Text) : Bool := piece == [] || piece == ['.']

/-- The `pieces` without those at the end for which `isIdle` holds. -/
def dropIdle (pieces : List Text) : List Text := (pieces.reverse.dropWhile isIdle).reverse

/-- The beginning of `path` that stays when names are taken from its end: the slash of the root, or a dot that
is the whole first piece. -/
def anchor (path : Text) : Text :=
  match path with
  | '/' :: _ => ['/']
  | ['.'] => ['.']
  | '.' :: '/' :: _ => ['.']
  | _ => []

/-- The path of the directory that holds what `path` names, if it names anything. The `anchor` is never taken
away. -/
def parent? (path : Text) : Option Text :=
  let start := anchor path
  match dropIdle ((path.drop start.length).splitOn '/') with
  | [] => if start = ['.'] then some [] else none
  | piece :: rest => some (start ++ List.intercalate ['/'] (dropIdle (piece :: rest).dropLast))

/-! ## The parent is a shorter beginning of the path -/

private theorem intercalate_isPrefix (front back : List Text) :
    List.intercalate ['/'] front <+: List.intercalate ['/'] (front ++ back) := by
  induction front with
  | nil => simp
  | cons first others ih =>
    cases others with
    | nil =>
      cases back with
      | nil => simp
      | cons second rest => simp
    | cons second rest =>
      simpa using ih

private theorem length_intercalate_lt (front : List Text) (piece : Text) (back : List Text)
    (h : piece ≠ []) :
    (List.intercalate ['/'] front).length <
      (List.intercalate ['/'] (front ++ piece :: back)).length := by
  induction front with
  | nil =>
    have := List.length_pos_iff.2 h
    cases back with
    | nil => simpa using this
    | cons second rest =>
      simp only [List.intercalate_nil, List.nil_append, List.intercalate_cons_cons,
        List.length_append, List.length_nil]
      omega
  | cons first others ih =>
    cases others with
    | nil => simp
    | cons second rest =>
      simpa using ih

/-- Only pieces at the end are dropped, so `dropIdle` leaves a beginning of `pieces`. -/
theorem dropIdle_isPrefix (pieces : List Text) : dropIdle pieces <+: pieces := by
  have := List.dropWhile_suffix isIdle (l := pieces.reverse)
  simpa [dropIdle] using List.reverse_prefix.2 this

/-- The last piece that `dropIdle` leaves is not idle. -/
theorem isIdle_getLast_dropIdle {pieces : List Text} (h : dropIdle pieces ≠ []) :
    isIdle ((dropIdle pieces).getLast h) = false := by
  have nonempty : pieces.reverse.dropWhile isIdle ≠ [] := by simpa [dropIdle] using h
  have := List.head_dropWhile_not isIdle nonempty
  simpa [dropIdle] using this

/-- The `path` is its `anchor` with the rest after it. -/
theorem anchor_append_drop (path : Text) :
    anchor path ++ path.drop (anchor path).length = path := by
  unfold anchor
  split <;> simp

private theorem intercalate_dropIdle_dropLast {pieces : List Text} (h : dropIdle pieces ≠ []) :
    List.intercalate ['/'] (dropIdle (dropIdle pieces).dropLast) <+: List.intercalate ['/'] pieces ∧
    (List.intercalate ['/'] (dropIdle (dropIdle pieces).dropLast)).length <
      (List.intercalate ['/'] pieces).length := by
  obtain ⟨tail, pieces_eq⟩ := dropIdle_isPrefix pieces
  obtain ⟨middle, front_eq⟩ := dropIdle_isPrefix (dropIdle pieces).dropLast
  have last_ne : (dropIdle pieces).getLast h ≠ [] := fun empty => by
    simpa [empty, isIdle] using isIdle_getLast_dropIdle h
  -- the pieces are those kept, the last piece that is not idle, and the idle ones after it
  have whole : (dropIdle pieces).dropLast ++ (dropIdle pieces).getLast h :: tail = pieces := by
    rw [List.append_cons, List.dropLast_concat_getLast h, pieces_eq]
  have first := intercalate_isPrefix (dropIdle (dropIdle pieces).dropLast) middle
  rw [front_eq] at first
  have second := intercalate_isPrefix (dropIdle pieces).dropLast ((dropIdle pieces).getLast h :: tail)
  have shorter := length_intercalate_lt (dropIdle pieces).dropLast _ tail last_ne
  rw [whole] at second shorter
  exact ⟨first.trans second, Nat.lt_of_le_of_lt first.length_le shorter⟩

private theorem parent?_spec {path up : Text} (h : parent? path = some up) :
    up <+: path ∧ up.length < path.length := by
  have whole := anchor_append_drop path
  have body : List.intercalate ['/'] ((path.drop (anchor path).length).splitOn '/') =
      path.drop (anchor path).length := List.intercalate_splitOn '/'
  simp only [parent?] at h
  split at h
  · split at h
    · next dot =>
      cases h
      rw [dot] at whole
      rw [← whole]
      simp
    · cases h
  · next piece rest kept =>
    cases h
    have nonempty : dropIdle ((path.drop (anchor path).length).splitOn '/') ≠ [] := by simp [kept]
    have ⟨inside, shorter⟩ := intercalate_dropIdle_dropLast nonempty
    rw [body, kept] at inside shorter
    constructor
    · have := (List.prefix_append_right_inj (anchor path)).2 inside
      rwa [whole] at this
    · have := congrArg List.length whole
      simp only [List.length_append] at this ⊢
      omega

/-- The parent `up` is a beginning of `path`. -/
theorem parent?_isPrefix {path up : Text} (h : parent? path = some up) : up <+: path :=
  (parent?_spec h).1

/-- The parent `up` is shorter than `path`, so going up comes to an end. -/
theorem length_parent?_lt {path up : Text} (h : parent? path = some up) : up.length < path.length :=
  (parent?_spec h).2

end LabelledEnum.Path
