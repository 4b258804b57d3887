import Idk.Model.Editor
import Idk.Verified.Model.Rebind

/-!
# Editors that can be reviewed

`Project::validate` accepts more than `validate_config` does.  A stored editor can be used
for a review exactly when whoever gave its arguments gave them in the reviewed form.
-/

namespace Idk.Model

/-! ## The reviewed form -/

/-- A short argument without control characters and unknown placeholders. -/
structure Plain (argument : String) : Prop where
  short : argument.utf8ByteSize ≤ 8192
  visible : hasControl argument = false
  known : (withoutPlaceholders argument).any (fun char => char == '{' || char == '}') = false

/-- Arguments with one file placeholder of its own, after the first `--`. -/
structure Reviewable (args : List String) : Prop where
  few : args.length ≤ 64
  plain : ∀ argument ∈ args, Plain argument
  shape : ∃ before middle after, "--" ∉ before ∧
    args = before ++ "--" :: (middle ++ filePlaceholder :: after) ∧
    ∀ argument ∈ before ++ middle ++ after, contains argument filePlaceholder = false

theorem checkArgument_ok {delimiter index : Nat} {argument : String} :
    checkArgument delimiter index argument = .ok () ↔ Plain argument ∧
      (contains argument filePlaceholder = true →
        argument = filePlaceholder ∧ delimiter < index) := by
  simp only [checkArgument, bind_eq_ok, ensure_eq_ok, exists_const, Bool.and_eq_true,
    Bool.or_eq_true, Bool.not_eq_true', decide_eq_true_eq, beq_iff_eq]
  constructor
  · rintro ⟨⟨short, visible⟩, placed, known⟩
    refine ⟨⟨short, visible, known⟩, fun held => ?_⟩
    simpa [held] using placed
  · rintro ⟨⟨short, visible, known⟩, placed⟩
    refine ⟨⟨short, visible⟩, ?_, known⟩
    cases held : contains argument filePlaceholder with
    | true => exact .inr (placed held)
    | false => exact .inl rfl

theorem forM_eq_ok {α : Type} {check : α → Result Unit} {list : List α} :
    list.forM check = .ok () ↔ ∀ element ∈ list, check element = .ok () := by
  induction list with
  | nil => simp [List.forM, pure, Except.pure]
  | cons head rest inductionHypothesis =>
    change check head >>= (fun _ => rest.forM check) = _ ↔ _
    rw [bind_eq_ok, inductionHypothesis, List.forall_mem_cons]
    exact ⟨fun ⟨_, here, others⟩ => ⟨here, others⟩, fun ⟨here, others⟩ => ⟨(), here, others⟩⟩

/-- The first element that passes a test, with what stands before and after it. -/
theorem findIdx?_split {α : Type} {test : α → Bool} {list : List α} {index : Nat} :
    list.findIdx? test = some index ↔ ∃ before element after,
      list = before ++ element :: after ∧ before.length = index ∧ test element = true ∧
        ∀ other ∈ before, test other = false := by
  induction list generalizing index with
  | nil => simp
  | cons head rest inductionHypothesis =>
    rw [List.findIdx?_cons]
    cases found : test head with
    | true =>
      constructor
      · intro here
        cases here
        exact ⟨[], head, rest, rfl, rfl, found, fun _ listed => nomatch listed⟩
      · rintro ⟨before, element, after, split, rfl, _, others⟩
        cases before with
        | nil => rfl
        | cons first others' =>
          cases split
          simp [found] at others
    | false =>
      simp only [Bool.false_eq_true, if_false, Option.map_eq_some_iff, inductionHypothesis]
      constructor
      · rintro ⟨_, ⟨before, element, after, rfl, rfl, passes, others⟩, rfl⟩
        exact ⟨head :: before, element, after, rfl, rfl, passes, by simpa [found] using others⟩
      · rintro ⟨before, element, after, split, rfl, passes, others⟩
        cases before with
        | nil =>
          cases split
          simp [found] at passes
        | cons first before =>
          cases split
          exact ⟨_, ⟨before, element, after, rfl, rfl, passes,
            fun other listed => others other (List.mem_cons_of_mem _ listed)⟩, rfl⟩

/-- The only element that passes a test. -/
theorem countP_eq_one {α : Type} {test : α → Bool} {list : List α} :
    list.countP test = 1 ↔ ∃ before element after, list = before ++ element :: after ∧
      test element = true ∧ ∀ other ∈ before ++ after, test other = false := by
  constructor
  · intro single
    have some_ : (list.findIdx? test).isSome = true := by
      rw [List.findIdx?_isSome, List.any_eq_true]
      exact List.countP_pos_iff.mp (by omega)
    obtain ⟨index, found⟩ := Option.isSome_iff_exists.mp some_
    obtain ⟨before, element, after, rfl, _, passes, others⟩ := findIdx?_split.mp found
    refine ⟨before, element, after, rfl, passes, fun other listed => ?_⟩
    obtain earlier | later := List.mem_append.mp listed
    · exact others other earlier
    · rw [List.countP_append, List.countP_cons_of_pos passes] at single
      have none : after.countP test = 0 := by omega
      simpa using List.countP_eq_zero.mp none other later
  · rintro ⟨before, element, after, rfl, passes, others⟩
    have none (part : List α) (within : ∀ other ∈ part, other ∈ before ++ after) :
        part.countP test = 0 := by
      rw [List.countP_eq_zero]
      intro other listed
      simp [others other (within other listed)]
    rw [List.countP_append, List.countP_cons_of_pos passes,
      none before fun _ => List.mem_append_left _, none after fun _ => List.mem_append_right _]

/-- What the loop of `validate_config` checks, with the delimiter in its place. -/
theorem checkArguments_ok {before after : List String} :
    (before ++ "--" :: after).zipIdx.forM
        (fun entry => checkArgument before.length entry.2 entry.1) = .ok () ↔
      (∀ argument ∈ before ++ "--" :: after, Plain argument) ∧
      (∀ argument ∈ before, contains argument filePlaceholder = false) ∧
      ∀ argument ∈ after, contains argument filePlaceholder = true →
        argument = filePlaceholder := by
  have indexed (list : List String) (start : Nat) {property : String → Prop} :
      (∀ entry ∈ list.zipIdx start, property entry.1) ↔ ∀ argument ∈ list, property argument := by
    rw [← List.forall_mem_map (f := Prod.fst), List.zipIdx_map_fst]
  have early : (∀ entry ∈ before.zipIdx, checkArgument before.length entry.2 entry.1 = .ok ()) ↔
      ∀ argument ∈ before, Plain argument ∧ contains argument filePlaceholder = false := by
    rw [← indexed before 0]
    refine forall₂_congr fun entry listed => ?_
    have index := List.snd_lt_add_of_mem_zipIdx listed
    rw [checkArgument_ok]
    cases contains entry.1 filePlaceholder <;> simp
    omega
  have late : (∀ entry ∈ after.zipIdx (before.length + 1),
        checkArgument before.length entry.2 entry.1 = .ok ()) ↔
      ∀ argument ∈ after, Plain argument ∧
        (contains argument filePlaceholder = true → argument = filePlaceholder) := by
    rw [← indexed after (before.length + 1)]
    refine forall₂_congr fun entry listed => ?_
    have index := List.le_snd_of_mem_zipIdx listed
    have past : before.length < entry.2 := by omega
    simp only [checkArgument_ok, past, and_true]
  have delimiter : contains "--" filePlaceholder = false := by decide
  rw [forM_eq_ok, List.zipIdx_append, List.forall_mem_append, early, List.zipIdx_cons,
    List.forall_mem_cons, Nat.zero_add, late, checkArgument_ok, delimiter]
  simp only [List.forall_mem_append, List.forall_mem_cons, forall_and]
  grind

/-- The reviewed form is what `validate_config` checks. -/
theorem validateConfig_iff {config : EditorConfig} :
    validateConfig config = .ok () ↔
      isAbsolute config.executable = true ∧ Reviewable config.args := by
  have delimiter : contains "--" filePlaceholder = false := by decide
  simp only [validateConfig, bind_eq_ok, ensure_eq_ok, exists_const, context_eq_ok,
    Bool.and_eq_true, decide_eq_true_eq, beq_iff_eq, findIdx?_split]
  constructor
  · rintro ⟨⟨absolute, few⟩, _, ⟨before, _, after, split, rfl, rfl, others⟩, _, checked, single⟩
    rw [split] at checked single few
    obtain ⟨plain, early, late⟩ := checkArguments_ok.mp checked
    have none : before.countP (contains · filePlaceholder) = 0 := by
      simpa [List.countP_eq_zero] using early
    rw [List.countP_append, none, Nat.zero_add, List.countP_cons_of_neg (by simp [delimiter])]
      at single
    obtain ⟨middle, file, last, rfl, held, rest⟩ := countP_eq_one.mp single
    cases late file (by simp) held
    refine ⟨absolute, by rw [split]; exact few, by rw [split]; exact plain, before, middle, last,
      fun listed => by simpa using others "--" listed, split, fun argument listed => ?_⟩
    rw [List.append_assoc, List.mem_append] at listed
    obtain first | later := listed
    · exact early argument first
    · exact rest argument later
  · rintro ⟨absolute, few, plain, before, middle, after, others, split, rest⟩
    have early : ∀ argument ∈ before, contains argument filePlaceholder = false :=
      fun argument listed => rest argument (by simp [listed])
    have later : ∀ argument ∈ middle ++ after, contains argument filePlaceholder = false :=
      fun argument listed => rest argument (by
        rw [List.append_assoc]
        exact List.mem_append_right _ listed)
    have held : contains filePlaceholder filePlaceholder = true := by decide
    have only : (middle ++ filePlaceholder :: after).countP (contains · filePlaceholder) = 1 :=
      countP_eq_one.mpr ⟨middle, filePlaceholder, after, rfl, held, later⟩
    have none : before.countP (contains · filePlaceholder) = 0 := by
      simpa [List.countP_eq_zero] using early
    refine ⟨⟨absolute, few⟩, before.length, ⟨before, "--", _, split, rfl, rfl, ?_⟩, (), ?_, ?_⟩
    · intro other listed
      exact beq_false_of_ne fun same => others (same ▸ listed)
    · rw [split] at plain ⊢
      refine checkArguments_ok.mpr ⟨plain, early, fun argument listed named => ?_⟩
      by_contra other
      have elsewhere : argument ∈ middle ++ after := by
        simp only [List.mem_append, List.mem_cons] at listed ⊢
        tauto
      rw [later argument elsewhere] at named
      cases named
    · rw [split, List.countP_append, none, List.countP_cons_of_neg (by simp [delimiter]), only]

/-! ## Where an editor comes from -/

variable {system : EditorSystem} {isUuid : String → Bool} {sources : EditorSources}

theorem available_valid {config : EditorConfig} {origin : String}
    (available : (editorCandidate system config origin).available = true) :
    validateConfig config = .ok () := by
  simp only [editorCandidate] at available
  cases valid : validateConfig config with
  | ok _ => rfl
  | error _ =>
    rw [valid] at available
    cases available

theorem installedCandidate_valid {cwd : PathBuf} {candidate : EditorCandidate}
    (found : installedCandidate system cwd = some candidate) :
    validateConfig candidate.config = .ok () := by
  obtain ⟨program, _, usable⟩ := List.exists_of_findSome?_eq_some found
  split at usable
  · cases usable
  · dsimp only at usable
    split at usable <;> cases usable
    rename_i available
    exact available_valid available

theorem variableCandidate_valid {cwd : PathBuf} {name value : String}
    {candidate : EditorCandidate}
    (found : variableCandidate system cwd name value = .ok candidate)
    (available : candidate.available = true) : validateConfig candidate.config = .ok () := by
  obtain ⟨argv, _, found⟩ := bind_eq_ok.mp found
  cases argv with
  | nil => cases found
  | cons program argv =>
    obtain ⟨_, _, found⟩ := bind_eq_ok.mp found
    dsimp only at found
    split at found <;> cases found
    · exact available_valid available
    · cases available

/-- A discovered editor was checked. -/
theorem discovered_valid {config : EditorConfig}
    (found : sources.discovered system none = .ok (some config)) :
    validateConfig config = .ok () := by
  obtain ⟨discovered, searched, found⟩ := bind_eq_ok.mp found
  cases discovered with
  | none => cases found
  | some candidate =>
    dsimp only at found
    split at found <;> cases found
    rename_i available
    obtain ⟨_, _, searched⟩ := bind_eq_ok.mp searched
    dsimp only at searched
    split at searched
    · obtain ⟨candidate, named, searched⟩ := bind_eq_ok.mp searched
      cases searched
      exact variableCandidate_valid named available
    · exact installedCandidate_valid (Except.ok.inj searched)

namespace EditorSources

/-- The arguments that the declaration, else the preferences give. -/
def declaredArgs (sources : EditorSources) : Option (Option (List String)) :=
  let declared := sources.declaration.join
  if sources.preferred.isSome || declared.isSome then
    some ((declared.bind (·.args)).or (sources.preferred.bind (·.args)))
  else none

/-- The arguments that the sources give: there are none for an editor that is discovered, and
    `some none` is an editor without arguments. -/
def givenArgs (sources : EditorSources) : Option (Option (List String)) :=
  let stored := (sources.existing.bind (·.editor)).map fun editor => some editor.args
  match sources.existing, sources.previous with
  | some existing, some previous =>
    if existing.editor ≠ previous.editor then stored else sources.declaredArgs
  | some _, none => if sources.declaration.join.isNone then stored else sources.declaredArgs
  | none, _ => sources.declaredArgs

/-- Whoever gives the editor gives its arguments, in the reviewed form. -/
def Reviewed (sources : EditorSources) : Prop :=
  ∀ given, sources.givenArgs = some given → ∃ args, given = some args ∧ Reviewable args

end EditorSources

theorem applyEditor_args {editor : Option EditorConfig} {declaration : EditorDeclaration}
    {base : PathBuf} {config : EditorConfig}
    (applied : applyEditor system editor declaration base = .ok config) :
    config.args = (declaration.args.or (editor.map (·.args))).getD [filePlaceholder] := by
  simp only [applyEditor] at applied
  split at applied
  · obtain ⟨program, _, returned⟩ := bind_eq_ok.mp applied
    cases returned
    rfl
  · obtain ⟨editor, _, applied⟩ := bind_eq_ok.mp applied
    obtain ⟨program, _, returned⟩ := bind_eq_ok.mp applied
    cases returned
    rfl

theorem applied_args {editor : Option EditorConfig}
    (applied : sources.applied system = .ok editor) :
    editor.map (·.args) = sources.declaredArgs.map (·.getD [filePlaceholder]) := by
  simp only [EditorSources.applied] at applied
  split at applied
  · rename_i some_
    obtain ⟨config, made, returned⟩ := bind_eq_ok.mp applied
    cases returned
    simp only [EditorSources.declaredArgs, some_, if_true, Option.map_some,
      applyEditor_args made, overridden]
    cases sources.declaration.join <;> cases sources.preferred <;> simp
  · rename_i none_
    cases applied
    simp [EditorSources.declaredArgs, none_]

theorem kept_args {editor : Option EditorConfig}
    (applied : sources.applied system = .ok editor) :
    (sources.kept editor).map (·.args) = sources.givenArgs.map (·.getD [filePlaceholder]) := by
  have own := applied_args applied
  rw [EditorSources.kept, EditorSources.givenArgs]
  cases sources.existing with
  | none => exact own
  | some existing =>
    cases sources.previous with
    | none =>
      dsimp only
      split
      · cases editor : existing.editor <;> simp [editor]
      · exact own
    | some previous =>
      dsimp only
      split
      · cases editor : existing.editor <;> simp [editor]
      · exact own

/-- The default arguments have no `--`. -/
theorem default_not_reviewable : ¬ Reviewable [filePlaceholder] := by
  intro reviewable
  obtain ⟨before, middle, after, _, split, _⟩ := reviewable.shape
  have length := congrArg List.length split
  simp only [List.length_append, List.length_cons, List.length_nil] at length
  omega

theorem reviewed_iff {editor : EditorConfig}
    (given : some editor.args = sources.givenArgs.map (·.getD [filePlaceholder])) :
    sources.Reviewed ↔ Reviewable editor.args := by
  obtain ⟨args, found, same⟩ := Option.map_eq_some_iff.mp given.symm
  simp only [EditorSources.Reviewed, found, Option.some.injEq, forall_eq']
  cases args with
  | none => simpa [← same] using default_not_reviewable
  | some args => simp [← same]

theorem validate_editor {project : Project} {editor : EditorConfig}
    (valid : project.validate isUuid = .ok ()) (has : project.editor = some editor) :
    isAbsolute editor.executable = true := by
  have checked : editor.validate = .ok () := by
    simp only [Project.validate, bind_eq_ok, has, exists_and_right] at valid
    obtain ⟨_, _, _, _, _, _, _, _, _, _, _, _, _, _, checked⟩ := valid
    exact checked
  obtain ⟨_, absolute, _⟩ := bind_eq_ok.mp checked
  rw [absolutePath, ensure_eq_ok, Bool.and_eq_true] at absolute
  exact absolute.1

/-- An editor that is given stays as it is; otherwise one is discovered. -/
theorem discovered_editor {given : Option EditorConfig} {found : Option EditorConfig}
    {editor : EditorConfig} (discovered : sources.discovered system given = .ok found)
    (has : found = some editor) :
    given = some editor ∨ given = none ∧ validateConfig editor = .ok () := by
  subst has
  cases given with
  | some given =>
    cases discovered
    exact .inl rfl
  | none => exact .inr ⟨rfl, discovered_valid discovered⟩

/-- The editor comes from its sources, or it is discovered. -/
theorem resolved_editor {rest : Result Project} {project : Project} {editor : EditorConfig}
    (resolved : resolveFor system isUuid sources rest = .ok project)
    (has : project.editor = some editor) :
    some editor.args = sources.givenArgs.map (·.getD [filePlaceholder]) ∨
      sources.givenArgs = none ∧ validateConfig editor = .ok () := by
  -- Either way the editor is what discovery makes of an editor with the given arguments.
  have origin : ∃ given found, sources.discovered system given = .ok found ∧
      found = some editor ∧
      given.map (·.args) = sources.givenArgs.map (·.getD [filePlaceholder]) := by
    obtain ⟨_, bound, resolved⟩ := bind_eq_ok.mp resolved
    split at resolved
    · rename_i existing undeclared known
      obtain ⟨found, discovered, returned⟩ := bind_eq_ok.mp resolved
      cases returned
      refine ⟨existing.editor, found, discovered, has, ?_⟩
      have unbound : sources.previous = none := by
        simpa [undeclared] using bound
      rw [EditorSources.givenArgs, known, unbound, undeclared]
      cases editor : existing.editor <;> simp [editor]
    · obtain ⟨project, _, resolved⟩ := bind_eq_ok.mp resolved
      obtain ⟨applied, made, resolved⟩ := bind_eq_ok.mp resolved
      obtain ⟨found, discovered, resolved⟩ := bind_eq_ok.mp resolved
      obtain ⟨_, _, returned⟩ := bind_eq_ok.mp resolved
      cases returned
      exact ⟨_, found, discovered, has, kept_args made⟩
  obtain ⟨given, found, discovered, has, same⟩ := origin
  obtain rfl | ⟨rfl, valid⟩ := discovered_editor discovered has
  · exact .inl same
  · exact .inr ⟨by simpa using same.symm, valid⟩

/-- A stored editor can be reviewed exactly when whoever gave it gave reviewable arguments. -/
theorem stored_editor_reviewable_iff {rest : Result Project} {project : Project}
    {editor : EditorConfig} (stored : applyResolved system isUuid sources rest = .ok project)
    (has : project.editor = some editor) :
    validateConfig editor = .ok () ↔ sources.Reviewed := by
  obtain ⟨_, resolved, stored⟩ := bind_eq_ok.mp stored
  obtain ⟨_, valid, returned⟩ := bind_eq_ok.mp stored
  cases returned
  have absolute := validate_editor valid has
  obtain given | ⟨nothing, valid⟩ := resolved_editor resolved has
  · rw [validateConfig_iff, reviewed_iff given]
    simp [absolute]
  · simp [valid, EditorSources.Reviewed, nothing]

/-! ## A declaration that names only the program -/

/-- One installed editor. -/
def sampleSystem : EditorSystem where
  environment _ := none
  isExecutable path := path == ["/", "usr", "bin", "vi"]
  available path := if path = ["/", "usr", "bin", "vi"] then some path else none
  trusted _ := .ok ()

/-- A new folder whose declaration has an editor. -/
def sampleSources (args : Option (List String)) : EditorSources where
  root := ["/", "old"]
  configDir := ["/", "home", "config"]
  preferred := none
  declaration := some (some { program := some "/usr/bin/vi", args := args, externalGui := none })
  existing := none
  previous := none

def sampleIsUuid (id : String) : Bool := id.utf8ByteSize == 36

def sampleStored (args : Option (List String)) : Result Project :=
  applyResolved sampleSystem sampleIsUuid (sampleSources args) (.ok Verified.Model.sampleProject)

theorem sampleStored_args (args : Option (List String))
    (stored : ((sampleStored args).toOption.bind (·.editor)).isSome = true) :
    ∃ project editor, sampleStored args = .ok project ∧ project.editor = some editor := by
  cases resolved : sampleStored args with
  | error error =>
    rw [resolved] at stored
    cases stored
  | ok project =>
    rw [resolved] at stored
    obtain ⟨editor, has⟩ := Option.isSome_iff_exists.mp stored
    exact ⟨project, editor, rfl, has⟩

theorem sample_reviewable_iff :
    ∃ project editor, sampleStored (some ["--", filePlaceholder]) = .ok project ∧
      project.editor = some editor ∧
      (validateConfig editor = .ok () ↔ (sampleSources (some ["--", filePlaceholder])).Reviewed) := by
  obtain ⟨project, editor, stored, has⟩ :=
    sampleStored_args (some ["--", filePlaceholder]) (by decide)
  exact ⟨project, editor, stored, has, stored_editor_reviewable_iff stored has⟩

/-- A declaration that gives only the program is stored with arguments that no review accepts. -/
theorem default_editor_refused :
    ¬ ∀ (system : EditorSystem) (isUuid : String → Bool) (sources : EditorSources)
      (rest : Result Project) (project : Project) (editor : EditorConfig),
      applyResolved system isUuid sources rest = .ok project → project.editor = some editor →
      validateConfig editor = .ok () := by
  intro agree
  obtain ⟨project, editor, stored, has⟩ := sampleStored_args none (by decide)
  have valid := agree _ _ _ _ project editor stored has
  obtain ⟨_, resolved, returned⟩ := bind_eq_ok.mp stored
  obtain ⟨_, _, returned⟩ := bind_eq_ok.mp returned
  cases returned
  obtain given | ⟨nothing, _⟩ := resolved_editor resolved has
  · have default : editor.args = [filePlaceholder] := Option.some.inj given
    rw [validateConfig_iff, default] at valid
    exact default_not_reviewable valid.2
  · cases nothing

end Idk.Model
