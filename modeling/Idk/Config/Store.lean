import Idk.Base
import Idk.Logic.Interleaving
import Idk.Logic.Replacement

/-!
# The configuration store

`Store::load`, `save`, `update` and `atomic_write` (`store.rs`) on the workspace
definition (`model.rs`), one atomic action for each access to the configuration
directory.  Before every action the environment says whether it fails.

The content of a file that has its final name never changes: it was written under a
fresh name and renamed.  The temporary file is therefore not part of the state.
`log` keeps what each rename of the workspace file replaced; no action reads it.
-/

namespace Idk.Config

open Idk.Logic (Program Interleaving Replacement)

/-! ## The workspace definition -/

/-- `SCHEMA`. -/
def schemaVersion : Nat := 3

/-- `MAX_MESSAGE`. -/
def maxMessage : Nat := 4 * 1024 * 1024

structure NativeShell where
  args : List String
  env : List (String × String)
deriving DecidableEq, Repr

structure ShellConfig where
  native : Option NativeShell
  executable : PathBuf
deriving DecidableEq, Repr

inductive TaskExecution where
  | process (program : PathBuf) (args : List String) (env : List (String × String))
  | script (interpreter : PathBuf) (args : List String) (source : String)
      (env : List (String × String))
deriving DecidableEq, Repr

structure TaskDefinition where
  execution : Option TaskExecution
  id : String
  name : String
deriving DecidableEq, Repr

structure Project where
  id : String
  name : String
  root : PathBuf
  shell : ShellConfig
  tasks : List TaskDefinition
deriving DecidableEq, Repr

structure PortableBinding where
  projectId : String
  path : PathBuf
  digest : String
deriving DecidableEq, Repr

structure Workspace where
  schema : Nat
  revision : Nat
  portable : List PortableBinding
  projects : List Project
  selectedProject : Option String
  recentProjects : List String
deriving DecidableEq, Repr

namespace Workspace

/-- `Workspace::default`. -/
def default : Workspace where
  schema := schemaVersion
  revision := 0
  portable := []
  projects := []
  selectedProject := none
  recentProjects := []

def usesExecution (workspace : Workspace) : Bool :=
  workspace.projects.any fun project =>
    project.shell.native.isSome || project.tasks.any (·.execution.isSome)

/-- The schema that `save` writes the definition with. -/
def raiseSchema (workspace : Workspace) : Workspace :=
  if !workspace.portable.isEmpty then { workspace with schema := schemaVersion }
  else if workspace.usesExecution then { workspace with schema := max workspace.schema 2 }
  else workspace

/-- The definition as it is stored over revision `expected`. -/
def stamp (workspace : Workspace) (expected : Nat) : Workspace :=
  { workspace.raiseSchema with revision := expected + 1 }

@[simp] theorem stamp_revision (workspace : Workspace) (expected : Nat) :
    (workspace.stamp expected).revision = expected + 1 := rfl

end Workspace

/-- The TOML format and `Workspace::validate`. -/
structure Format where
  encode : Workspace → Result String
  decode : String → Result Workspace
  validate : Workspace → Result Unit

/-! ## The directory -/

/-- The files of the configuration directory: `workspace.toml`, `workspace.previous.toml`
    and `workspace.schema{version}.toml`. -/
inductive ConfigFile where
  | workspace
  | previous
  | migration (version : Nat)
deriving DecidableEq, Repr

structure Directory (κ : Type) where
  files : ConfigFile → Option String
  /-- The holder of `workspace.lock`. -/
  lock : Option κ
  log : List (Replacement κ Workspace)

/-- An action that may fail before it is done. -/
abbrev Step (κ α : Type) := Program (Result Unit) (Directory κ) String α

variable {κ : Type} [DecidableEq κ]

namespace Store

/-- One access to the directory. -/
def access {α : Type} (run : Directory κ → Directory κ × Result α) : Step κ α :=
  .action fun directory io => some <|
    match io with
    | .ok () => run directory
    | .error error => (directory, .error error)

/-- An access to a file that no one else names. -/
def unseen : Step κ Unit := access fun directory => (directory, .ok ())

/-! ### Locking -/

/-- `FileLock::acquire`, when it stops trying. -/
def acquire (id : κ) : Step κ Unit := access fun directory =>
  match directory.lock with
  | none => ({ directory with lock := some id }, .ok ())
  | some _ => (directory, .error "resource is locked; retry after the other operation finishes")

def release (id : κ) : Directory κ → Directory κ := fun directory =>
  if directory.lock = some id then { directory with lock := none } else directory

/-- `Drop for FileLock`. -/
def unlock (id : κ) : Step κ Unit := .action fun directory _ => some (release id directory, .ok ())

/-! ### Files -/

def readPrivate (content : Option String) : Result (Option String) :=
  match content with
  | none => .ok none
  | some text => do
    ensure (text.utf8ByteSize ≤ maxMessage) "exceeds size limit"
    pure (some text)

/-- `Store::load`, from what one open of the file found. -/
def loadText (format : Format) (content : Option String) : Result Workspace := do
  match ← readPrivate content with
  | none => pure .default
  | some text => do
    let workspace ← format.decode text
    format.validate workspace
    pure workspace

def load (format : Format) : Step κ Workspace := access fun directory =>
  (directory, loadText format (directory.files .workspace))

/-- `path.exists()`, which hides a failure. -/
def fileExists (file : ConfigFile) : Step κ Bool := .action fun directory io =>
  some (directory, .ok (io.isOk && (directory.files file).isSome))

def rename (file : ConfigFile) (text : String) (entry : Option (Replacement κ Workspace))
    (directory : Directory κ) : Directory κ :=
  { directory with
    files := Function.update directory.files file (some text)
    log := entry.toList ++ directory.log }

/-- `atomic_write`: the temporary file is created, written and synced, then renamed; the
    directory is synced last. -/
def atomicWrite (file : ConfigFile) (text : String)
    (entry : Option (Replacement κ Workspace)) : Step κ Unit := do
  unseen -- the destination is a regular owned file
  unseen -- create
  unseen -- write
  unseen -- sync
  access fun directory => (rename file text entry directory, .ok ())
  unseen -- sync of the directory

/-! ### Saving -/

/-- `expected_revision.checked_add(1)`. -/
def nextRevision (expected : Nat) : Result Nat :=
  if expected + 1 < 2 ^ 64 then .ok (expected + 1) else .error "configuration revision exhausted"

/-- What `save` checks and computes before it writes. -/
def prepare (format : Format) (workspace : Workspace) (expected : Nat) (previous : Workspace) :
    Result (Workspace × String) := do
  ensure (previous.revision == expected) "configuration changed elsewhere; reload before saving"
  let workspace := workspace.raiseSchema
  format.validate workspace
  let revision ← nextRevision expected
  let workspace := { workspace with revision }
  let encoded ← format.encode workspace
  ensure (encoded.utf8ByteSize ≤ maxMessage) "configuration exceeds size limit"
  pure (workspace, encoded)

/-- The copies `save` keeps of the file it is about to replace. -/
def backup (previous workspace : Workspace) : Step κ Unit := do
  if ← fileExists .workspace then
    let old ← access fun directory => (directory, readPrivate (directory.files .workspace))
    let old ← (context old "No such file or directory" : Result String)
    if previous.schema < workspace.schema then
      if ← fileExists (.migration previous.schema) then pure ()
      else atomicWrite (.migration previous.schema) old none
    atomicWrite .previous old none

/-- `save` with the lock held. -/
def saveLocked (format : Format) (id : κ) (workspace : Workspace) (expected : Nat) :
    Step κ Unit := do
  let previous ← load format
  let (workspace, encoded) ← (prepare format workspace expected previous : Result _)
  backup previous workspace
  atomicWrite .workspace encoded (some ⟨id, previous, workspace⟩)

/-- `Store::save`. -/
def save (format : Format) (id : κ) (workspace : Workspace) (expected : Nat) : Step κ Unit := do
  acquire id
  let outcome ← (saveLocked format id workspace expected).attempt
  unlock id
  .done outcome

/-- `Store::update`. -/
def update (format : Format) (id : κ) (edit : Workspace → Result Workspace) : Step κ Unit := do
  let workspace ← load format
  let revision := workspace.revision
  let workspace ← (edit workspace : Result _)
  save format id workspace revision

end Store

/-- What a process may call. -/
inductive Call where
  | update (edit : Workspace → Result Workspace)
  | save (workspace : Workspace) (expected : Nat)

/-- Any number of calls, by any processes, on one configuration directory. -/
def store (format : Format) : Interleaving κ Call (Result Unit) (Directory κ) String Unit where
  code id
    | .update edit => Store.update format id edit
    | .save workspace expected => Store.save format id workspace expected
  bury := Store.release

end Idk.Config
