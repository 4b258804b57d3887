import Idk.Verified.Model.Editor

/-!
# The arguments of an editor are a template with one hole

**Main result:** `arguments_template`: what a checked configuration makes of a file is the
path of the file, as one argument behind `--`, among arguments that do not depend on it.
-/

namespace Idk.Model

/-- The positions that an argument asks for are there. -/
def Placed (line column : Option Nat) (argument : String) : Prop :=
  (contains argument linePlaceholder = true → line.isSome = true) ∧
    (contains argument columnPlaceholder = true → column.isSome = true)

/-- A position of a diagnostic that the arguments can be built with. -/
structure Admissible (args : List String) (line column : Option Nat) : Prop where
  positive : (line.all (0 < ·) && column.all (0 < ·)) = true
  placed : ∀ argument ∈ args, Placed line column argument

section Building

variable {line column : Option Nat} {file : String}

theorem buildArgument_placed {argument : String} (placed : Placed line column argument) :
    buildArgument file line column argument =
      .ok (if argument = filePlaceholder then file else expand line column argument) := by
  have lined : (!contains argument linePlaceholder || line.isSome) = true := by
    cases asked : contains argument linePlaceholder
    · rfl
    · exact placed.1 asked
  have columned : (!contains argument columnPlaceholder || column.isSome) = true := by
    cases asked : contains argument columnPlaceholder
    · rfl
    · exact placed.2 asked
  simp only [buildArgument, lined, columned]
  rfl

/-- The delimiter holds no placeholder. -/
theorem expand_delimiter : expand line column "--" = "--" := by
  have untouched (pattern : List Char) (replacement : List Char) (brace : pattern.head? = some '{') :
      replaceAll pattern replacement 0 ['-', '-'] = ['-', '-'] := by
    cases pattern with
    | nil => cases brace
    | cons first rest =>
      obtain rfl := Option.some.inj brace
      have other : ('{' == '-') = false := by decide
      simp only [replaceAll, List.isPrefixOf, other, Bool.false_and, Bool.false_eq_true, if_false]
  have dashes : "--".toList = ['-', '-'] := by decide
  simp only [expand, dashes]
  rw [untouched linePlaceholder.toList _ (by decide), untouched columnPlaceholder.toList _ (by decide)]

theorem mapM_build {args : List String} (placed : ∀ argument ∈ args, Placed line column argument) :
    args.mapM (buildArgument file line column) = .ok (args.map fun argument =>
      if argument = filePlaceholder then file else expand line column argument) := by
  induction args with
  | nil => rfl
  | cons head rest inductionHypothesis =>
    have others := inductionHypothesis fun argument listed =>
      placed argument (List.mem_cons_of_mem _ listed)
    rw [List.mapM_cons, buildArgument_placed (placed head List.mem_cons_self), others]
    rfl

end Building

/-- The file name is inert: it is one whole argument after `--`, and the others are the same
    whatever it is. -/
theorem arguments_template {config : EditorConfig} {line column : Option Nat}
    (checked : validateConfig config = .ok ()) (admissible : Admissible config.args line column) :
    ∃ before middle after : List String,
      (before ++ "--" :: (middle ++ "" :: after)).length = config.args.length ∧
      ∀ (file : List UInt8) (path : String), String.fromUTF8? ⟨file.toArray⟩ = some path →
        arguments config file line column = .ok (before ++ "--" :: (middle ++ path :: after)) := by
  obtain ⟨_, reviewable⟩ := validateConfig_iff.mp checked
  obtain ⟨before, middle, after, _, split, others⟩ := reviewable.shape
  refine ⟨before.map (expand line column), middle.map (expand line column),
    after.map (expand line column), by simp [split], fun file path named => ?_⟩
  have run : arguments config file line column =
      config.args.mapM (buildArgument path line column) := by
    simp only [arguments, admissible.positive, named]
    rfl
  rw [run, mapM_build admissible.placed]
  have plain {part : List String} (within : ∀ argument ∈ part, argument ∈ before ++ middle ++ after) :
      part.map (fun argument => if argument = filePlaceholder then path
        else expand line column argument) = part.map (expand line column) := by
    refine List.map_congr_left fun argument listed => ?_
    have free := others argument (within argument listed)
    have other : argument ≠ filePlaceholder := by
      rintro rfl
      exact absurd free (by decide)
    rw [if_neg other]
  have delimiter : ("--" = filePlaceholder) = False := by decide
  rw [split, List.map_append, List.map_cons, List.map_append, List.map_cons,
    plain fun argument listed => by simp [listed], plain fun argument listed => by simp [listed],
    plain fun argument listed => by simp [listed]]
  simp only [delimiter, if_false, if_true, expand_delimiter]

/-- An editor that takes a line, for a file whose name is a placeholder. -/
def sampleEditor : EditorConfig where
  executable := ["/", "usr", "bin", "vi"]
  args := ["+\x7bline\x7d", "--", filePlaceholder]
  externalGui := false

theorem arguments_template_sample : ∃ before middle after : List String,
    (before ++ "--" :: (middle ++ "" :: after)).length = sampleEditor.args.length ∧
    ∀ (file : List UInt8) (path : String), String.fromUTF8? ⟨file.toArray⟩ = some path →
      arguments sampleEditor file (some 3) none =
        .ok (before ++ "--" :: (middle ++ path :: after)) := by
  have none_ : ∀ argument ∈ sampleEditor.args, contains argument columnPlaceholder = false := by
    decide
  refine arguments_template (by decide) ⟨by decide, fun argument listed => ⟨fun _ => rfl, ?_⟩⟩
  simp [none_ argument listed]

end Idk.Model
