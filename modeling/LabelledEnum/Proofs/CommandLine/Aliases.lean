import LabelledEnum.CommandLine.Generate
import LabelledEnum.Proofs.CommandLine.Values
import LabelledEnum.Proofs.Namespace
import LabelledEnum.Proofs.Result
import Mathlib.Data.List.Induction
import Mathlib.Logic.Function.Basic

/-!
# Directories for first segments

Aliases give directories to the first segments of namespaces. Each of them takes the place of those before
it for its own segment and leaves all other segments alone, so only the last one for a segment counts.

* `Alias.StandsFor`, `Alias.segment_eq_iff`: the segment for which an alias stands.
* `Layout.aliasDirectory?_concat`: what one more alias changes.
* `Layout.aliasDirectory?_filter`: what the aliases for other segments change.
* `CommandLine.Gives`, `CommandLine.aliasDirectory?_of_words`: the directory of a segment, by the words that
  spell the aliases.
* `CommandLine.directory_of_alias_words`: the directory of a namespace.
-/

namespace LabelledEnum

/-! ## At signs -/

/-- What is left of `entry.name` when all at signs before it are taken away is `segment`. -/
def Alias.StandsFor (entry : Alias) (segment : Text) : Prop :=
  segment.head? ≠ some '@' ∧ ∃ signs, entry.name = List.replicate signs '@' ++ segment

/-- That `entry` stands for `segment` is what `Alias.segment` computes. -/
theorem Alias.segment_eq_iff {entry : Alias} {segment : Text} :
    entry.segment = segment ↔ entry.StandsFor segment := by
  constructor
  · rintro rfl
    constructor
    · intro first
      have stop := List.head?_dropWhile_not (· == '@') entry.name
      rw [Alias.segment] at first
      rw [first] at stop
      simp at stop
    · have signs := List.eq_replicate_of_mem (a := '@') (l := entry.name.takeWhile (· == '@'))
        fun c member => by simpa using List.all_eq_true.1 List.all_takeWhile c member
      exact ⟨_, by rw [← signs, Alias.segment, List.takeWhile_append_dropWhile]⟩
  · rintro ⟨bare, signs, spelt⟩
    have within : ∀ c ∈ List.replicate signs '@', (c == '@') = true := by simp
    have ended : ∀ c ∈ segment.head?, (c == '@') = false := by
      intro c first
      rw [beq_eq_false_iff_ne]
      rintro rfl
      exact bare first
    rw [Alias.segment, spelt]
    exact (Text.span_append within ended).2

/-! ## The last alias -/

namespace Layout

variable {entries others : List Alias} {first : Text} {rest : List Text} {space : Namespace}

/-- An alias `entry` at the end takes the place of those before it for its segment, and no other segment is
touched. -/
theorem aliasDirectory?_concat (entries : List Alias) (entry : Alias) :
    aliasDirectory? (entries ++ [entry]) =
      Function.update (aliasDirectory? entries) entry.segment (some entry.directory) := by
  funext segment
  rw [aliasDirectory?, List.reverse_append, List.reverse_singleton, List.singleton_append,
    List.find?_cons, Function.update_apply, aliasDirectory?]
  by_cases same : segment = entry.segment
  · simp [same]
  · simp [same, Ne.symm same]

/-- Only the aliases for `segment` count when its directory is looked up. -/
theorem aliasDirectory?_filter (entries : List Alias) (segment : Text) :
    aliasDirectory? (entries.filter (·.segment = segment)) segment =
      aliasDirectory? entries segment := by
  rw [aliasDirectory?, ← List.filter_reverse, List.find?_filter, aliasDirectory?]
  simp

/-- A namespace that begins with `first` is below the directory of that segment, or has none if the segment is
unknown. -/
theorem directory_of_segments (segments : space.segments = first :: rest) :
    (aliased entries).directory space =
      match aliasDirectory? entries first with
      | none => .error (.unknownAlias first space.display)
      | some root => .ok (Path.joinAll root rest) := by
  obtain ⟨all⟩ := space
  obtain rfl : all = first :: rest := segments
  rfl

/-- Only a namespace without segments has no first segment to look up in `entries`. -/
theorem directory_eq_emptyNamespace_iff :
    (aliased entries).directory space = .error .emptyNamespace ↔ space.segments = [] := by
  constructor
  · intro failed
    cases segments : space.segments with
    | nil => rfl
    | cons first rest =>
      rw [directory_of_segments segments] at failed
      split at failed <;> cases failed
  · intro none
    unfold directory
    rw [none]

/-- Lists `entries` and `others` that agree on the aliases for the first segment place the namespace alike. -/
theorem directory_congr (segments : space.segments = first :: rest)
    (same : others.filter (·.segment = first) = entries.filter (·.segment = first)) :
    (aliased others).directory space = (aliased entries).directory space := by
  rw [directory_of_segments segments, directory_of_segments segments, ← aliasDirectory?_filter others,
    same, aliasDirectory?_filter]

end Layout

/-! ## Words that spell aliases -/

namespace CommandLine

variable {words : List Text} {entries : List Alias}

/-- What `word` spells is an alias that stands for `segment` and gives it the directory `directory`. -/
def Gives (word segment directory : Text) : Prop :=
  ∃ entry : Alias, entry.IsSpelt word ∧ entry.StandsFor segment ∧ entry.directory = directory

/-- Of the `words` that spell aliases, the last one that gives `segment` a directory counts. -/
theorem aliasDirectory?_of_words (read : words.mapM readAlias = .ok entries) (segment : Text) :
    (∃ before word after directory, words = before ++ word :: after ∧ Gives word segment directory ∧
      (∀ later ∈ after, ∀ other, ¬Gives later segment other) ∧
      Layout.aliasDirectory? entries segment = some directory) ∨
    ((∀ word ∈ words, ∀ directory, ¬Gives word segment directory) ∧
      Layout.aliasDirectory? entries segment = none) := by
  -- the aliases are taken up one by one, so the induction takes away the last word
  induction words using List.reverseRecOn generalizing entries with
  | nil =>
    cases read
    exact .inr ⟨by simp, rfl⟩
  | append_singleton words word ih =>
    obtain ⟨earlier, entry, readEarlier, readEntry, rfl⟩ := mapM_concat_eq_ok_iff.1 read
    have spelt := readAlias_eq_ok_iff.1 readEntry
    rw [Layout.aliasDirectory?_concat, Function.update_apply]
    split
    · next same =>
      have stands := Alias.segment_eq_iff.1 same.symm
      exact .inl ⟨words, word, [], entry.directory, rfl, ⟨entry, spelt, stands, rfl⟩, by simp, rfl⟩
    · next different =>
      have other : ∀ directory, ¬Gives word segment directory := by
        rintro _ ⟨same, spelt', stands, -⟩
        -- a word spells one alias only
        cases readEntry.symm.trans (readAlias_eq_ok_iff.2 spelt')
        exact different (Alias.segment_eq_iff.2 stands).symm
      rcases ih readEarlier with
        ⟨before, found, after, directory, rfl, gives, none, same⟩ | ⟨none, same⟩
      · refine .inl ⟨before, found, after ++ [word], directory, by simp, gives, ?_, same⟩
        simpa [or_imp, forall_and] using ⟨none, other⟩
      · exact .inr ⟨by simpa [or_imp, forall_and] using ⟨none, other⟩, same⟩

/-- The `words` are read as aliases if each of them is a name and a directory, neither of them blank, with an
equals sign between them that is the first one. With these aliases, a namespace without segments has no
directory. Any other namespace is in the directory that the last word for its first segment gives, below which
its other segments are, and its first segment is unknown if no word is for it. Words for other segments change
nothing, nor does their place among the words for the segment. -/
theorem directory_of_alias_words (read : words.mapM readAlias = .ok entries) (text : Text) :
    let space := Namespace.parse text
    let placed := (Layout.aliased entries).directory space
    (∀ word entry, readAlias word = .ok entry ↔ entry.IsSpelt word) ∧
    (∀ options : GenerateOptions, options.aliases = entries →
      options.layout = if entries = [] then .under options.outDir else .aliased entries) ∧
    (placed = .error .emptyNamespace ↔ space.segments = []) ∧
    ∀ first rest, space.segments = first :: rest →
      ((∃ word ∈ words, ∃ directory, Gives word first directory) →
        ∃ before word after directory, words = before ++ word :: after ∧ Gives word first directory ∧
          (∀ later ∈ after, ∀ other, ¬Gives later first other) ∧
          placed = .ok (Path.joinAll directory rest)) ∧
      ((∀ word ∈ words, ∀ directory, ¬Gives word first directory) →
        placed = .error (.unknownAlias first space.display)) ∧
      ∀ others : List Alias,
        others.filter (·.segment = first) = entries.filter (·.segment = first) →
          (Layout.aliased others).directory space = placed := by
  intro space placed
  refine ⟨fun word entry => readAlias_eq_ok_iff, ?_, Layout.directory_eq_emptyNamespace_iff, ?_⟩
  · rintro options rfl
    rw [GenerateOptions.layout]
    simp only [List.isEmpty_iff]
  · intro first rest segments
    have looked : (Layout.aliased entries).directory space = _ := Layout.directory_of_segments segments
    refine ⟨?_, ?_, fun others same => Layout.directory_congr segments same⟩
    · rintro ⟨word, member, directory, gives⟩
      rcases aliasDirectory?_of_words read first with
        ⟨before, last, after, directory, split, gives, none, found⟩ | ⟨none, -⟩
      · rw [found] at looked
        exact ⟨before, last, after, directory, split, gives, none, looked⟩
      · exact absurd gives (none word member directory)
    · intro none
      rcases aliasDirectory?_of_words read first with
        ⟨before, word, after, directory, rfl, gives, -⟩ | ⟨-, missing⟩
      · exact absurd gives (none word (by simp) directory)
      · rw [missing] at looked
        exact looked

/-- The second word takes the place of the first one, although its name has at signs and blanks around it. A
segment with an at sign is never found. -/
theorem directory_of_alias_words_repeated :
    let words : List Text := ["app=/srv/old", " @@app = ./new/=x "]
    let entries : List Alias := [⟨"app", "/srv/old"⟩, ⟨"@@app", "./new/=x"⟩]
    words.mapM readAlias = .ok entries ∧
      (Layout.aliased entries).directory (Namespace.parse " app.models/") = .ok "./new/=x/models" ∧
      (Layout.aliased entries).directory (Namespace.parse "@app") =
        .error (.unknownAlias "@app" "@app") := by
  intro words entries
  have read : words.mapM readAlias = .ok entries := by decide +kernel
  have segments : (Namespace.parse " app.models/").segments = (["app", "models"] : List Text) := by
    decide +kernel
  have spelt : Alias.IsSpelt ⟨"@@app", "./new/=x"⟩ " @@app = ./new/=x " :=
    readAlias_eq_ok_iff.1 (by decide +kernel)
  have gives : Gives " @@app = ./new/=x " "app" "./new/=x" :=
    ⟨_, spelt, ⟨by decide, 2, by decide⟩, rfl⟩
  refine ⟨read, ?_, ?_⟩
  · obtain ⟨-, -, -, resolves⟩ := directory_of_alias_words read " app.models/"
    obtain ⟨before, word, after, directory, split, ⟨entry, spelt', -, rfl⟩, none, placed⟩ :=
      (resolves _ _ segments).1 ⟨_, by simp [words], _, gives⟩
    rcases before with _ | ⟨first, _ | ⟨second, others⟩⟩
    · -- the second word comes after the first one
      obtain ⟨rfl, rfl⟩ := List.cons.inj split
      exact absurd gives (none _ List.mem_cons_self _)
    · obtain ⟨-, split⟩ := List.cons.inj split
      obtain ⟨rfl, rfl⟩ := List.cons.inj split
      cases (readAlias_eq_ok_iff.2 spelt).symm.trans (readAlias_eq_ok_iff.2 spelt')
      exact placed.trans (by decide)
    · simp [words] at split
  · have segments : (Namespace.parse "@app").segments = (["@app"] : List Text) := by decide +kernel
    obtain ⟨-, -, -, resolves⟩ := directory_of_alias_words read "@app"
    refine ((resolves _ _ segments).2.1 ?_).trans (by decide +kernel)
    rintro _ - _ ⟨_, -, ⟨bare, -⟩, -⟩
    exact bare (by decide)

end CommandLine

end LabelledEnum
