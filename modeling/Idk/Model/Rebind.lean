import Idk.Model.Project

/-!
# Moving a project to a new root

`remap_path` and `rebind_preview` (`project.rs`).  The reviewed changes are collected in
the state of the loop over the fields.  `Repository::discover` is given to the program.
-/

namespace Idk.Model

structure PathChange where
  field : String
  old : PathBuf
  new : PathBuf
deriving DecidableEq, Repr

structure RootRebindPreview where
  revision : Nat
  projectId : String
  oldRoot : PathBuf
  newRoot : PathBuf
  project : Project
  changes : List PathChange
  repositoryNotice : Option String
deriving DecidableEq, Repr

/-- What a preview reads of `Workspace`. -/
structure Workspace where
  revision : Nat
  projects : List Project
deriving DecidableEq, Repr

def Workspace.project (workspace : Workspace) (id : String) : Result Project :=
  context (workspace.projects.find? (·.id == id)) "project not found"

/-- `path.strip_prefix(base)`. -/
def stripPrefix (path base : PathBuf) : Option PathBuf :=
  if base.isPrefixOf path then some (path.drop base.length) else none

/-- `base.join(path)` of a relative path. -/
def join (base path : PathBuf) : PathBuf := base ++ path

/-- The reviewed changes so far. -/
abbrev Reviewing (α : Type) := StateM (List PathChange) α

section

variable (old new : PathBuf)

def remapPath (path : PathBuf) (field : String) : Reviewing PathBuf := do
  match stripPrefix path old with
  | none => pure path
  | some suffix =>
    let replacement := join new suffix
    if replacement = path then pure path
    else
      modify (· ++ [⟨field, path, replacement⟩])
      pure replacement

/-- The loop over `items` with the number of each, from `index + 1` on. -/
def remapEach {α : Type} (remap : α → Nat → Reviewing α) : List α → Nat → Reviewing (List α)
  | [], _ => pure []
  | item :: rest, index => do
    let item ← remap item (index + 1)
    let rest ← remapEach remap rest (index + 1)
    pure (item :: rest)

def remapSources (label : String) (sources : List SourceSpec) : Reviewing (List SourceSpec) :=
  remapEach (fun source index => do
    let path ← remapPath old new source.path (label ++ toString index)
    pure { source with path := path }) sources 0

/-- `if let Some(artifact)`. -/
def remapArtifact (label : String) : Option PathBuf → Reviewing (Option PathBuf)
  | none => pure none
  | some artifact => do
    let artifact ← remapPath old new artifact label
    pure (some artifact)

def remapTerminal (terminal : TerminalDefinition) : Reviewing TerminalDefinition := do
  let cwd ← remapPath old new terminal.cwd (terminal.name ++ " start cwd")
  let sources ← remapSources old new (terminal.name ++ " source ") terminal.sources
  pure { terminal with cwd := cwd, sources := sources, trustedDigest := none }

def remapTask (task : TaskDefinition) : Reviewing TaskDefinition := do
  let cwd ← remapPath old new task.cwd (task.name ++ " task cwd")
  let sources ← remapSources old new (task.name ++ " task source ") task.sources
  let artifact ← remapArtifact old new (task.name ++ " artifact") task.artifact
  let buildOutputs ← remapEach (fun output index =>
    remapPath old new output (task.name ++ " build output " ++ toString index)) task.buildOutputs 0
  pure
    { task with
      cwd := cwd
      sources := sources
      artifact := artifact
      buildOutputs := buildOutputs
      approvedDigest := none }

/-- The fields up to the last task. -/
def remapProject (project : Project) : Reviewing Project := do
  let root ← remapPath old new project.root "project root"
  let initCwd ← remapPath old new project.shell.initCwd "initialization cwd"
  let executable ← remapPath old new project.shell.executable "shell executable"
  let sources ← remapSources old new "common source " project.shell.sources
  let terminals ← remapEach (fun terminal _ => remapTerminal old new terminal) project.terminals 0
  let tasks ← remapEach (fun task _ => remapTask old new task) project.tasks 0
  pure
    { project with
      root := root
      shell :=
        { project.shell with
          initCwd := initCwd, executable := executable, sources := sources }
      terminals := terminals
      tasks := tasks }

variable (discover : PathBuf → Result Repository)

/-- `discover_binding`. -/
def discoverBinding (root : PathBuf) : Option Repository × Option String :=
  match discover root with
  | .ok repository => (some repository, none)
  | .error error => (none, some ("Git binding is unverified: " ++ error))

/-- The primary repository, with the notice about it. -/
def remapRepository (project : Project) : Reviewing (Project × Option String) := do
  match project.repository with
  | none => pure (project, none)
  | some previous =>
    let path ← remapPath old new previous "primary repository"
    if previous = path then pure (project, none)
    else
      let observed := discoverBinding discover path
      pure ({ project with repository := some path, repositoryBinding := observed.1 }, observed.2)

/-- A related repository, with the notice if it could not be observed at its new place. -/
def remapRelated (notice : Option String) (repository : Repository) :
    Reviewing (Repository × Option String) := do
  match stripPrefix repository.root old with
  | none => pure (repository, notice)
  | some suffix =>
    let replacement := join new suffix
    if replacement = repository.root then pure (repository, notice)
    else
      modify (· ++ [⟨"related repository", repository.root, replacement⟩])
      match discover replacement with
      | .ok observed => pure (observed, notice)
      | .error error =>
        pure (repository, some ("related repository needs explicit reconnection: " ++ error))

def remapRelatedAll : List Repository → Option String →
    Reviewing (List Repository × Option String)
  | [], notice => pure ([], notice)
  | repository :: rest, notice => do
    let (repository, notice) ← remapRelated old new discover notice repository
    let (rest, notice) ← remapRelatedAll rest notice
    pure (repository :: rest, notice)

end

/-- The project at its new root, before it is validated. -/
def moveProject (discover : PathBuf → Result Repository) (root : PathBuf) (project : Project) :
    Reviewing (Project × Option String) := do
  let oldRoot := project.root
  let project ← remapProject oldRoot root project
  let (project, notice) ← remapRepository oldRoot root discover project
  let (related, notice) ← remapRelatedAll oldRoot root discover project.relatedRepositories notice
  pure
    ({ project with
        relatedRepositories := related
        shell := { project.shell with trustedDigest := none } }, notice)

def rebindPreview (isUuid : String → Bool) (discover : PathBuf → Result Repository)
    (workspace : Workspace) (projectId : String) (root : PathBuf) : Result RootRebindPreview := do
  absolutePath root
  let project ← workspace.project projectId
  let moved := moveProject discover root project []
  moved.1.1.validate isUuid
  pure
    { revision := workspace.revision
      projectId := projectId
      oldRoot := project.root
      newRoot := root
      project := moved.1.1
      changes := moved.2
      repositoryNotice := moved.1.2 }

end Idk.Model
