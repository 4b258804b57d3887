import Idk.Model.Rebind
import Mathlib

/-!
# What a root rebind moves

The preview moves the fields that the loop visits, in the order of `Project.visited`, and
lists what it replaces.  The programs of tasks and of the editor are not visited, so the
preview is complete exactly when none of them lies below the old root.
-/

namespace Idk.Verified.Model

open Idk.Model

/-! ## The path fields of a project -/

def sourcePaths (sources : List SourceSpec) : List PathBuf := sources.map (·.path)

def terminalPaths (terminal : TerminalDefinition) : List PathBuf :=
  terminal.cwd :: sourcePaths terminal.sources

def taskPaths (task : Model.TaskDefinition) : List PathBuf :=
  task.cwd :: sourcePaths task.sources ++ task.artifact.toList ++ task.buildOutputs

/-- The program or the interpreter. -/
def executionProgram : Model.TaskExecution → PathBuf
  | .process program _ _ => program
  | .script interpreter _ _ _ => interpreter

def visited (project : Project) : List PathBuf :=
  [project.root, project.shell.initCwd, project.shell.executable] ++
    sourcePaths project.shell.sources ++ project.terminals.flatMap terminalPaths ++
    project.tasks.flatMap taskPaths

/-- The programs that tasks and the editor start. -/
def executables (project : Project) : List PathBuf :=
  project.tasks.filterMap (·.execution.map executionProgram) ++
    (project.editor.map (·.executable)).toList

def pathFields (project : Project) : List PathBuf := visited project ++ executables project

/-! ## Moving one path -/

section

variable (old new : PathBuf)

/-- The same suffix below the new root, for what lies at or below the old one. -/
def moved (path : PathBuf) : PathBuf :=
  match stripPrefix path old with
  | none => path
  | some suffix => join new suffix

def replaced (path : PathBuf) : Option (PathBuf × PathBuf) :=
  if moved old new path = path then none else some (path, moved old new path)

/-- What the reviewed changes say. -/
def pairs (changes : List PathChange) : List (PathBuf × PathBuf) :=
  changes.map fun change => (change.old, change.new)

end

variable {old new : PathBuf} {α β : Type}

theorem moved_eq_self_iff {path : PathBuf} :
    moved old new path = path ↔ new = old ∨ path.startsWith old = false := by
  unfold moved stripPrefix PathBuf.startsWith
  by_cases below : old.isPrefixOf path
  · obtain ⟨suffix, rfl⟩ := List.isPrefixOf_iff_prefix.mp below
    simp [below, join]
  · simp [below]

theorem map_moved_eq_self {paths : List PathBuf} :
    paths.map (moved old new) = paths ↔ ∀ path ∈ paths, moved old new path = path := by
  induction paths with
  | nil => simp
  | cons path rest inductionHypothesis => simp [inductionHypothesis]

/-! ## The loops -/

/-- The program reads `fields`, moves them, and lists what it replaces; `done` has been moved
    before, and `read` are the paths of its result. -/
def Moves (old new : PathBuf) (program : Reviewing α) (done fields : List PathBuf)
    (read : α → List PathBuf) : Prop :=
  ∀ changes, read (program changes).1 = done ++ fields.map (moved old new) ∧
    pairs (program changes).2 = pairs changes ++ fields.filterMap (replaced old new)

theorem Moves.value {value : α} {done : List PathBuf} {read : α → List PathBuf}
    (same : read value = done) : Moves old new (pure value) done [] read := by
  intro changes
  constructor
  · simpa [pure, StateT.pure] using same
  · simp [pure, StateT.pure]

theorem Moves.bind {program : Reviewing α} {next : α → Reviewing β}
    {done first rest : List PathBuf} {middle : α → List PathBuf} {read : β → List PathBuf}
    (start : Moves old new program [] first middle)
    (continues : ∀ value, Moves old new (next value) (done ++ middle value) rest read) :
    Moves old new (program >>= next) done (first ++ rest) read := by
  intro changes
  obtain ⟨result, listed⟩ := start changes
  obtain ⟨later, laterListed⟩ := continues (program changes).1 (program changes).2
  constructor
  · show read (next (program changes).1 (program changes).2).1 = _
    simp [later, result]
  · show pairs (next (program changes).1 (program changes).2).2 = _
    simp [laterListed, listed]

theorem remapPath_moves (path : PathBuf) (field : String) :
    Moves old new (remapPath old new path field) [] [path] fun path => [path] := by
  intro changes
  unfold remapPath
  cases stripped : stripPrefix path old with
  | none =>
    have same : moved old new path = path := by simp [moved, stripped]
    simp [pure, StateT.pure, same, replaced]
  | some suffix =>
    have target : moved old new path = join new suffix := by simp [moved, stripped]
    by_cases same : join new suffix = path
    · simp [same, pure, StateT.pure, target, replaced]
    · simp [same, pure, StateT.pure, bind, StateT.bind, modify, modifyGet, MonadStateOf.modifyGet,
        StateT.modifyGet, target, replaced, pairs]

theorem remapEach_moves {remap : α → Nat → Reviewing α} {fields : α → List PathBuf}
    (each : ∀ item index, Moves old new (remap item index) [] (fields item) fields)
    (items : List α) (index : Nat) :
    Moves old new (remapEach remap items index) [] (items.flatMap fields) (·.flatMap fields) := by
  induction items generalizing index with
  | nil => exact Moves.value rfl
  | cons item rest inductionHypothesis =>
    rw [List.flatMap_cons]
    refine (each item (index + 1)).bind fun item => ?_
    rw [← List.append_nil (rest.flatMap fields)]
    refine (inductionHypothesis (index + 1)).bind fun rest => ?_
    exact Moves.value (by simp)

/-- What the loop makes of each item. -/
theorem remapEach_forall {remap : α → Nat → Reviewing α} {related : α → α → Prop}
    (each : ∀ item index changes, related item (remap item index changes).1)
    (items : List α) (index : Nat) (changes : List PathChange) :
    List.Forall₂ related items (remapEach remap items index changes).1 := by
  induction items generalizing index changes with
  | nil => exact .nil
  | cons item rest inductionHypothesis => exact .cons (each _ _ _) (inductionHypothesis _ _)

theorem remapSources_moves (label : String) (sources : List SourceSpec) :
    Moves old new (remapSources old new label sources) [] (sourcePaths sources) sourcePaths := by
  have each : ∀ (source : SourceSpec) (index : Nat), Moves old new (do
      let path ← remapPath old new source.path (label ++ toString index)
      pure { source with path := path }) [] [source.path] fun source => [source.path] := by
    intro source index
    rw [← List.append_nil [source.path]]
    exact (remapPath_moves source.path _).bind fun path => Moves.value rfl
  have single : (fun sources : List SourceSpec => sources.flatMap fun source => [source.path]) =
      sourcePaths := by
    funext sources
    induction sources with
    | nil => rfl
    | cons source rest inductionHypothesis =>
      simpa [sourcePaths] using inductionHypothesis
  have looped := remapEach_moves each sources 0
  rw [single] at looped
  exact (congrFun single sources) ▸ looped

theorem remapTerminal_moves (terminal : TerminalDefinition) :
    Moves old new (remapTerminal old new terminal) [] (terminalPaths terminal) terminalPaths := by
  show Moves old new _ [] ([terminal.cwd] ++ sourcePaths terminal.sources) terminalPaths
  refine (remapPath_moves terminal.cwd _).bind fun cwd => ?_
  rw [← List.append_nil (sourcePaths terminal.sources)]
  exact (remapSources_moves _ terminal.sources).bind fun sources => Moves.value rfl

theorem remapArtifact_moves (label : String) (artifact : Option PathBuf) :
    Moves old new (remapArtifact old new label artifact) [] artifact.toList Option.toList := by
  cases artifact with
  | none => exact Moves.value rfl
  | some artifact =>
    show Moves old new _ [] ([artifact] ++ []) _
    exact (remapPath_moves artifact _).bind fun artifact => Moves.value rfl

theorem remapTask_moves (task : Model.TaskDefinition) :
    Moves old new (remapTask old new task) [] (taskPaths task) taskPaths := by
  have outputs : Moves old new (remapEach (fun output index =>
      remapPath old new output (task.name ++ " build output " ++ toString index))
      task.buildOutputs 0) [] task.buildOutputs id := by
    have each : ∀ (output : PathBuf) (index : Nat), Moves old new
        (remapPath old new output (task.name ++ " build output " ++ toString index)) [] [output]
        fun output => [output] := fun output index => remapPath_moves output _
    have looped := remapEach_moves each task.buildOutputs 0
    have single : (fun outputs : List PathBuf => outputs.flatMap fun output => [output]) = id := by
      funext outputs
      simp
    rw [single] at looped
    simpa using looped
  have fields : taskPaths task = [task.cwd] ++ (sourcePaths task.sources ++
      (task.artifact.toList ++ (task.buildOutputs ++ []))) := by simp [taskPaths]
  rw [fields]
  refine (remapPath_moves task.cwd _).bind fun cwd => ?_
  refine (remapSources_moves _ task.sources).bind fun sources => ?_
  refine (remapArtifact_moves _ task.artifact).bind fun artifact => ?_
  exact outputs.bind fun outputs => Moves.value (by simp [taskPaths])

theorem remapProject_moves (project : Project) :
    Moves old new (remapProject old new project) [] (visited project) visited := by
  have fields : visited project = [project.root] ++ ([project.shell.initCwd] ++
      ([project.shell.executable] ++ (sourcePaths project.shell.sources ++
        (project.terminals.flatMap terminalPaths ++
          (project.tasks.flatMap taskPaths ++ []))))) := by simp [visited]
  rw [fields]
  refine (remapPath_moves project.root _).bind fun root => ?_
  refine (remapPath_moves project.shell.initCwd _).bind fun initCwd => ?_
  refine (remapPath_moves project.shell.executable _).bind fun executable => ?_
  refine (remapSources_moves _ project.shell.sources).bind fun sources => ?_
  refine (remapEach_moves (fun terminal _ => remapTerminal_moves terminal)
    project.terminals 0).bind fun terminals => ?_
  refine (remapEach_moves (fun task _ => remapTask_moves task) project.tasks 0).bind fun tasks => ?_
  exact Moves.value (by simp [visited])

/-! ## What else the loop does to a project -/

/-- A task keeps its program and loses its approval. -/
def Disapproved (before after : Model.TaskDefinition) : Prop :=
  after.execution = before.execution ∧ after.approvedDigest = none

theorem remapTask_disapproved (task : Model.TaskDefinition) (changes : List PathChange) :
    Disapproved task (remapTask old new task changes).1 := ⟨rfl, rfl⟩

theorem remapTerminal_disapproved (terminal : TerminalDefinition) (changes : List PathChange) :
    (remapTerminal old new terminal changes).1.trustedDigest = none := rfl

/-- The programs of the project are those of `before`, and no task or terminal is approved. -/
structure Unapproved (before after : Project) : Prop where
  executables : executables after = executables before
  terminals : ∀ terminal ∈ after.terminals, terminal.trustedDigest = none
  tasks : ∀ task ∈ after.tasks, task.approvedDigest = none

theorem disapproved_executables {before after : List Model.TaskDefinition}
    (related : List.Forall₂ Disapproved before after) :
    after.filterMap (·.execution.map executionProgram) =
      before.filterMap (·.execution.map executionProgram) := by
  induction related with
  | nil => rfl
  | cons head _ inductionHypothesis =>
    simp only [List.filterMap_cons, head.1, inductionHypothesis]

theorem remapProject_unapproved (project : Project) (changes : List PathChange) :
    Unapproved project (remapProject old new project changes).1 := by
  have tasks : ∀ changes, List.Forall₂ Disapproved project.tasks
      (remapEach (fun task _ => remapTask old new task) project.tasks 0 changes).1 :=
    remapEach_forall (fun task _ => remapTask_disapproved task) project.tasks 0
  have terminals : ∀ changes, List.Forall₂ (fun _ after => after.trustedDigest = none)
      project.terminals
      (remapEach (fun terminal _ => remapTerminal old new terminal) project.terminals 0 changes).1 :=
    remapEach_forall (fun terminal _ => remapTerminal_disapproved terminal) project.terminals 0
  have each : ∀ {γ : Type} {fact : γ → Prop} {before after : List γ},
      List.Forall₂ (fun _ item => fact item) before after → ∀ item ∈ after, fact item := by
    intro γ fact before after related
    induction related with
    | nil => simp
    | cons head _ inductionHypothesis => simpa using ⟨head, inductionHypothesis⟩
  constructor
  · show List.filterMap _ (remapEach _ _ _ _).1 ++ _ = _
    rw [disapproved_executables (tasks _)]
    rfl
  · exact each (terminals _)
  · exact each ((tasks _).imp fun _ _ related => related.2)

/-! ## The repositories -/

/-- The program only adds changes. -/
def Appends (program : Reviewing α) : Prop :=
  ∀ changes, ∃ more, (program changes).2 = changes ++ more

theorem Appends.value (value : α) : Appends (pure value) :=
  fun changes => ⟨[], by simp [pure, StateT.pure]⟩

theorem Appends.bind {program : Reviewing α} {next : α → Reviewing β} (start : Appends program)
    (rest : ∀ value, Appends (next value)) : Appends (program >>= next) := by
  intro changes
  obtain ⟨first, same⟩ := start changes
  obtain ⟨more, later⟩ := rest (program changes).1 (program changes).2
  refine ⟨first ++ more, ?_⟩
  show (next (program changes).1 (program changes).2).2 = _
  rw [later, same, List.append_assoc]

theorem appends_one (change : PathChange) :
    Appends (modify (· ++ [change]) : Reviewing PUnit) := fun _ => ⟨[change], rfl⟩

theorem remapPath_appends (path : PathBuf) (field : String) :
    Appends (remapPath old new path field) := by
  unfold remapPath
  cases stripPrefix path old with
  | none => exact .value path
  | some suffix =>
    simp only
    split
    · exact .value path
    · exact (appends_one _).bind fun _ => .value _

variable {discover : PathBuf → Result Model.Repository}

theorem remapRepository_appends (project : Project) :
    Appends (remapRepository old new discover project) := by
  unfold remapRepository
  cases project.repository with
  | none => exact .value _
  | some previous =>
    refine (remapPath_appends previous _).bind fun path => ?_
    split
    · exact .value _
    · exact .value _

theorem remapRelated_appends (notice : Option String) (repository : Model.Repository) :
    Appends (remapRelated old new discover notice repository) := by
  unfold remapRelated
  cases stripPrefix repository.root old with
  | none => exact .value _
  | some suffix =>
    simp only
    split
    · exact .value _
    · refine (appends_one _).bind fun _ => ?_
      cases discover (join new suffix) with
      | ok observed => exact .value _
      | error error => exact .value _

theorem remapRelatedAll_appends (repositories : List Model.Repository) (notice : Option String) :
    Appends (remapRelatedAll old new discover repositories notice) := by
  induction repositories generalizing notice with
  | nil => exact .value _
  | cons repository rest inductionHypothesis =>
    refine (remapRelated_appends notice repository).bind fun one => ?_
    exact (inductionHypothesis one.2).bind fun all => .value _

/-- The project with other repositories has the same paths, programs and approvals. -/
theorem remapRepository_project (project : Project) (changes : List PathChange) :
    ∃ repository binding, (remapRepository old new discover project changes).1.1 =
      { project with repository := repository, repositoryBinding := binding } := by
  unfold remapRepository
  cases found : project.repository with
  | none => exact ⟨project.repository, project.repositoryBinding, rfl⟩
  | some previous =>
    cases remapped : remapPath old new previous "primary repository" changes with
    | mk path later =>
      simp only [bind, StateT.bind, remapped]
      by_cases same : previous = path
      · exact ⟨project.repository, project.repositoryBinding, by rw [if_pos same]; rfl⟩
      · exact ⟨some path, (discoverBinding discover path).1, by rw [if_neg same]; rfl⟩

/-! ## The preview -/

/-- What the preview moves and lists. -/
structure Previewed (before : Project) (preview : RootRebindPreview) : Prop where
  oldRoot : preview.oldRoot = before.root
  visited : visited preview.project = (visited before).map (moved preview.oldRoot preview.newRoot)
  executables : executables preview.project = executables before
  listed : (Model.visited before).filterMap (replaced preview.oldRoot preview.newRoot) <+:
    pairs preview.changes
  shell : preview.project.shell.trustedDigest = none
  terminals : ∀ terminal ∈ preview.project.terminals, terminal.trustedDigest = none
  tasks : ∀ task ∈ preview.project.tasks, task.approvedDigest = none

variable {isUuid : String → Bool} {workspace : Workspace} {projectId : String} {root : PathBuf}
  {before : Project} {preview : RootRebindPreview}

theorem rebindPreview_previewed (found : workspace.project projectId = .ok before)
    (accepted : rebindPreview isUuid discover workspace projectId root = .ok preview) :
    Previewed before preview ∧ preview.newRoot = root := by
  obtain ⟨_, _, accepted⟩ := bind_eq_ok.mp accepted
  rw [found] at accepted
  obtain ⟨project, same, accepted⟩ := bind_eq_ok.mp accepted
  obtain rfl : before = project := Except.ok.inj same
  obtain ⟨_, _, accepted⟩ := bind_eq_ok.mp accepted
  obtain rfl := Except.ok.inj accepted
  refine ⟨?_, rfl⟩
  -- The three loops one after the other.
  let first := remapProject before.root root before []
  let second := remapRepository before.root root discover first.1 first.2
  let third := remapRelatedAll before.root root discover second.1.1.relatedRepositories second.1.2
    second.2
  have loop : Moves before.root root (remapProject before.root root before) [] (visited before)
      visited := remapProject_moves before
  obtain ⟨fields, listed⟩ := loop []
  have unapproved : Unapproved before first.1 := remapProject_unapproved before []
  have repositories : ∃ repository binding, second.1.1 =
      { first.1 with repository := repository, repositoryBinding := binding } :=
    remapRepository_project first.1 first.2
  have primary : Appends (remapRepository before.root root discover first.1) :=
    remapRepository_appends first.1
  have related : Appends (remapRelatedAll before.root root discover
      second.1.1.relatedRepositories second.1.2) := remapRelatedAll_appends _ _
  obtain ⟨repository, binding, kept⟩ := repositories
  obtain ⟨more, appended⟩ := primary first.2
  obtain ⟨others, appendedOthers⟩ := related second.2
  have project : (moveProject discover root before []).1.1 =
      { first.1 with
        repository := repository
        repositoryBinding := binding
        relatedRepositories := third.1.1
        shell := { first.1.shell with trustedDigest := none } } := by
    show { second.1.1 with
      relatedRepositories := third.1.1
      shell := { second.1.1.shell with trustedDigest := none } } = _
    rw [kept]
  have changes : (moveProject discover root before []).2 = first.2 ++ (more ++ others) := by
    show third.2 = _
    rw [show third.2 = _ from appendedOthers, show second.2 = _ from appended, List.append_assoc]
  constructor
  · rfl
  · show visited (moveProject discover root before []).1.1 = _
    rw [project]
    exact fields
  · show executables (moveProject discover root before []).1.1 = _
    rw [project]
    exact unapproved.executables
  · show _ <+: pairs (moveProject discover root before []).2
    rw [changes]
    refine ⟨pairs (more ++ others), ?_⟩
    simp only [pairs, List.map_append] at listed ⊢
    rw [listed]
    simp
  · show (moveProject discover root before []).1.1.shell.trustedDigest = none
    rw [project]
  · show ∀ terminal ∈ (moveProject discover root before []).1.1.terminals, _
    rw [project]
    exact unapproved.terminals
  · show ∀ task ∈ (moveProject discover root before []).1.1.tasks, _
    rw [project]
    exact unapproved.tasks

/-- Every path field is moved, every replacement has an entry of its own among the reviewed
    changes, and nothing stays approved. -/
structure Complete (before : Project) (preview : RootRebindPreview) : Prop where
  moved : pathFields preview.project =
    (pathFields before).map (moved before.root preview.newRoot)
  listed : ((pathFields before).filterMap (replaced before.root preview.newRoot)).Sublist
    (pairs preview.changes)
  shell : preview.project.shell.trustedDigest = none
  terminals : ∀ terminal ∈ preview.project.terminals, terminal.trustedDigest = none
  tasks : ∀ task ∈ preview.project.tasks, task.approvedDigest = none

/-- The preview is complete exactly when the root stays or no program lies below the old one. -/
theorem rebind_complete_iff (found : workspace.project projectId = .ok before)
    (accepted : rebindPreview isUuid discover workspace projectId root = .ok preview) :
    Complete before preview ↔
      root = before.root ∨ ∀ path ∈ executables before, path.startsWith before.root = false := by
  obtain ⟨previewed, rfl⟩ := rebindPreview_previewed found accepted
  have oldRoot := previewed.oldRoot
  have visitedMoved := previewed.visited
  have listed := previewed.listed
  rw [oldRoot] at visitedMoved listed
  -- Completeness is about the fields that the loop does not visit.
  have still : (executables before).map (moved before.root preview.newRoot) = executables before ↔
      preview.newRoot = before.root ∨
        ∀ path ∈ executables before, path.startsWith before.root = false := by
    simp only [map_moved_eq_self, moved_eq_self_iff]
    grind
  rw [← still]
  constructor
  · intro complete
    have split := complete.moved
    rw [pathFields, pathFields, List.map_append, visitedMoved, previewed.executables] at split
    exact (List.append_cancel_left split).symm
  · intro same
    refine ⟨?_, ?_, previewed.shell, previewed.terminals, previewed.tasks⟩
    · rw [pathFields, pathFields, List.map_append, visitedMoved, previewed.executables, same]
    · have none : (executables before).filterMap (replaced before.root preview.newRoot) = [] := by
        simp only [List.filterMap_eq_nil_iff, replaced]
        intro path member
        rw [if_pos (map_moved_eq_self.mp same path member)]
      rw [pathFields, List.filterMap_append, none, List.append_nil]
      exact listed.sublist

/-! ## A tool of the old checkout -/

def sampleTask : Model.TaskDefinition where
  execution := some (.process ["/", "old", "tool"] [] [])
  id := "7f0cc8a4-52a6-44a4-9d0a-6a3f3c1f8a01"
  name := "build"
  command := ""
  cwd := ["/", "old"]
  sources := []
  artifact := none
  approvedDigest := some "approved"
  steps := []
  failurePolicy := .stop
  logging := .raw
  interactive := false
  buildOutputs := [["/", "old", "target"]]
  artifactFromTask := none
  timeoutSeconds := none

def sampleProject : Project where
  id := "7f0cc8a4-52a6-44a4-9d0a-6a3f3c1f8a02"
  name := "sample"
  root := ["/", "old"]
  repository := none
  repositoryBinding := none
  relatedRepositories := []
  defaultTerminal := none
  shell := ⟨none, ["/", "bin", "csh"], false, ["/", "old"], [], some "approved"⟩
  terminals := []
  tasks := [sampleTask]
  editor := none

def sampleWorkspace : Workspace := ⟨1, [sampleProject]⟩

/-- The preview of the move to `/new`; an id has the form with hyphens. -/
def samplePreview : Result RootRebindPreview :=
  rebindPreview (fun id => id.utf8ByteSize == 36) (fun _ => .error "not a Git repository")
    sampleWorkspace sampleProject.id ["/", "new"]

theorem samplePreview_tasks :
    samplePreview.map (fun preview => preview.project.tasks.map fun task => (task.cwd, task.execution)) =
      .ok [(["/", "new"], some (.process ["/", "old", "tool"] [] []))] := by
  decide

/-- The preview is accepted, and the task still starts the tool of the old checkout. -/
theorem rebind_incomplete :
    ∃ preview, samplePreview = .ok preview ∧ ¬ Complete sampleProject preview := by
  have tasks := samplePreview_tasks
  cases accepted : samplePreview with
  | error error => simp [accepted, Except.map] at tasks
  | ok preview =>
    refine ⟨preview, rfl, fun complete => ?_⟩
    have outcome : samplePreview.map (fun preview => decide (pathFields preview.project =
        (pathFields sampleProject).map (moved sampleProject.root preview.newRoot))) = .ok false := by
      decide
    simp [accepted, Except.map, complete.moved] at outcome

/-- The condition on that preview. -/
theorem rebind_complete_iff_sample :
    ∃ preview, samplePreview = .ok preview ∧ (Complete sampleProject preview ↔
      (["/", "new"] : PathBuf) = sampleProject.root ∨
        ∀ path ∈ executables sampleProject, path.startsWith sampleProject.root = false) := by
  have tasks := samplePreview_tasks
  cases accepted : samplePreview with
  | error error => simp [accepted, Except.map] at tasks
  | ok preview => exact ⟨preview, rfl, rebind_complete_iff (by decide) accepted⟩

end Idk.Verified.Model
