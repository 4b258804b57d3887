import Idk.Install.State
import Idk.Logic.Interleaving

/-!
# The installer

`Installer::install_with`, `recover` and `uninstall_entrypoints` (`install.rs`), one
atomic action for each change of the installation directory.  Before every action the
environment says whether it fails; the health check of an executable and the
verification of generation files are such actions.  A process may end between any two
actions.
-/

namespace Idk.Install

open Idk.Logic (Program Interleaving)

/-- The installation directory.  A temporary file or link is not part of it. -/
structure Prefix (κ : Type) where
  /-- The holder of `installation.lock`. -/
  lock : Option κ
  /-- `installation.json`. -/
  state : Option InstallationState
  /-- `activation.json`. -/
  journal : Option Journal
  current : Option PathBuf
  idk : Option PathBuf
deriving DecidableEq

structure InstallAnswer where
  io : Result Unit
  /-- `try_exists` of a generation directory. -/
  directory : Bool

/-- The target of `current` for a generation. -/
def generationLink (name : String) : PathBuf := ["generations", name]

/-- The target of `idk`. -/
def launcherLink : PathBuf := ["current", binary]

namespace Prefix

variable {κ : Type}

/-- The recorded state. -/
def recorded (root : Prefix κ) : InstallationState := root.state.getD .default

/-- What `check_links` demands. -/
def Linked (root : Prefix κ) (state : InstallationState) : Prop :=
  root.current = state.active.map generationLink ∧
    root.idk = state.active.map fun _ => launcherLink

end Prefix

namespace Installer

variable {κ : Type} [DecidableEq κ]

abbrev Step (κ α : Type) := Program InstallAnswer (Prefix κ) String α

/-- One access to the directory. -/
def access {α : Type} (run : Prefix κ → Prefix κ × Result α) : Step κ α :=
  .action fun root answer => some <|
    match answer.io with
    | .ok () => run root
    | .error error => (root, .error error)

def change (change : Prefix κ → Prefix κ) : Step κ Unit := access fun root => (change root, .ok ())

/-- A step that leaves the directory as it is. -/
def unseen : Step κ Unit := change id

/-- `FileLock::acquire`, nonblocking. -/
def lock (id : κ) : Step κ Unit := access fun root =>
  match root.lock with
  | none => ({ root with lock := some id }, .ok ())
  | some _ => (root, .error "resource is locked; retry after the other operation finishes")

def release (id : κ) (root : Prefix κ) : Prefix κ :=
  if root.lock = some id then { root with lock := none } else root

def unlock (id : κ) : Step κ Unit := .action fun root _ => some (release id root, .ok ())

/-- `atomic_write`: the temporary file, its rename, the sync of the directory. -/
def atomicWrite (rename : Prefix κ → Prefix κ) : Step κ Unit := do
  unseen
  change rename
  unseen

/-! ### State, journal and links -/

def readState : Step κ InstallationState := access fun root =>
  (root, do
    root.recorded.validate
    pure root.recorded)

def writeState (state : InstallationState) : Step κ Unit := do
  (state.validate : Result Unit)
  atomicWrite fun root => { root with state := some state }

def readJournal : Step κ (Option Journal) := access fun root =>
  (root, do
    root.journal.forM Journal.validate
    pure root.journal)

def writeJournal (journal : Journal) : Step κ Unit :=
  atomicWrite fun root => { root with journal := some journal }

def removeJournal : Step κ Unit := do
  change fun root => { root with journal := none }
  unseen

/-- `ensure!(!journal.try_exists()?)`. -/
def requireNoJournal (message : String) : Step κ Unit := access fun root =>
  (root, ensure root.journal.isNone message)

/-- The generation files are those of its sealed archive. -/
def verifyGeneration (generation : Generation) : Step κ Unit := do
  (generation.validate : Result Unit)
  unseen

def readCurrent : Step κ (Option PathBuf) := access fun root => (root, .ok root.current)

def readIdk : Step κ (Option PathBuf) := access fun root => (root, .ok root.idk)

def checkLinks (state : InstallationState) : Step κ Unit := do
  let current ← readCurrent
  (ensure (current == state.active.map generationLink)
    ("current entrypoint differs from committed installation; " ++
      "run recovery or inspect without modifying user files") : Result Unit)
  let launcher ← readIdk
  (ensure (launcher == state.active.map fun _ => launcherLink)
    "launcher differs from managed installation; existing path is preserved" : Result Unit)

/-- `remove_managed_link("idk", current/BINARY)`. -/
def removeLauncher : Step κ Unit := do
  match ← readIdk with
  | none => pure ()
  | some actual =>
    (ensure (actual == launcherLink) "entrypoint changed; preserved" : Result Unit)
    change fun root => { root with idk := none }
    unseen

/-- `remove_managed_link("current", None)`. -/
def removeCurrent : Step κ Unit := do
  match ← readCurrent with
  | none => pure ()
  | some _ =>
    change fun root => { root with current := none }
    unseen

def setActive (name : Option String) : Step κ Unit := do
  match name with
  | some target =>
    unseen -- the temporary link
    change fun root => { root with current := some (generationLink target) }
  | none => removeCurrent
  unseen

def ensureLauncher : Step κ Unit := do
  match ← readIdk with
  | some existing =>
    (ensure (existing == launcherLink)
      "existing launcher is not managed by this installation" : Result Unit)
  | none => change fun root => { root with idk := some launcherLink }
  unseen

/-! ### Operations -/

def restore (journal : Journal) : Step κ Unit := do
  let current ← readCurrent
  let old := journal.before.active.map generationLink
  let new := journal.target.map fun target => generationLink target.name
  (ensure (current == old || current == new)
    "activation entrypoint changed outside this transaction; preserved" : Result Unit)
  match journal.before.active with
  | some previous =>
    let generation ← (context (journal.before.generations.get? previous)
      "active generation is missing from inventory" : Result Generation)
    verifyGeneration generation
    setActive (some previous)
    ensureLauncher
  | none =>
    removeLauncher
    setActive none
  writeState journal.before
  removeJournal

/-- The version checks of an installation. -/
def checkVersions (before : InstallationState) (target : Generation) : Result Unit := do
  let version ← versionTuple target.version
  let own ← versionTuple cargoPkgVersion
  ensure (own.le version)
    "downgrade is unsupported; preserve workspace data and use a compatible release"
  before.committedVersionFloor.forM fun floor => do
    let floor ← versionTuple floor
    ensure (floor.le version)
      ("downgrade below a previously committed release is unsupported, " ++
        "including after uninstall; workspace data is preserved")
  before.active.forM fun active => do
    let active ← before.versionOf active
    ensure (active.le version)
      "downgrade is unsupported after activation; workspace data is preserved"

/-- The target's files are in place and it is in the inventory. -/
def stage (before : InstallationState) (target : Generation) : Step κ InstallationState := do
  match before.generations.get? target.name with
  | some known =>
    (ensure (known == target) "existing generation identity differs from reviewed bundle" :
      Result Unit)
    unseen -- verification of the staged files
    verifyGeneration known
    pure before
  | none =>
    (ensure (before.generations.length < maxGenerations)
      "installation inventory is full; no generation was automatically removed" : Result Unit)
    let directory ← .action fun root answer => some (root, answer.io.map fun _ => answer.directory)
    if !directory then
      unseen -- staging
      unseen -- archive
      unseen -- verification
      unseen -- rename
      unseen -- sync
    verifyGeneration target
    let before :=
      { before with generations := before.generations.insert target.name target }
    writeState before
    pure before

/-- `install_with`, with the lock held. -/
def installLocked (target : Generation) : Step κ InstallationState := do
  requireNoJournal "interrupted activation requires recovery before another update"
  let before ← readState
  checkLinks before
  (target.validate : Result Unit)
  (checkVersions before target : Result Unit)
  let before ← stage before target
  unseen -- health of the staged executable
  if before.active = some target.name then
    pure before
  else
    let journal : Journal := ⟨1, before, some target⟩
    writeJournal journal
    setActive (some target.name)
    ensureLauncher
    let healthy ← (unseen : Step κ Unit).attempt -- health of the active executable
    match healthy with
    | .error error =>
      restore journal
      .fail error
    | .ok () =>
      let after ← (before.committed (some target) : Result InstallationState)
      writeState after
      removeJournal
      pure after

/-- `recover`, with the lock held. -/
def recoverLocked : Step κ InstallationState := do
  match ← readJournal with
  | none =>
    let state ← readState
    checkLinks state
    pure state
  | some journal =>
    let observed ← readState
    let committed ← (journal.before.committed journal.target : Result InstallationState)
    if observed = committed then
      if let some target := journal.target then
        verifyGeneration target
      checkLinks observed
      removeJournal
      pure observed
    else
      (ensure (observed == journal.before)
        ("installation state changed outside the interrupted transaction; " ++
          "preserved for inspection") : Result Unit)
      restore journal
      pure journal.before

/-- `uninstall_entrypoints`, with the lock held. -/
def uninstallLocked : Step κ InstallationState := do
  requireNoJournal "recover interrupted activation before uninstalling entrypoints"
  let state ← readState
  checkLinks state
  writeJournal ⟨1, state, none⟩
  removeLauncher
  setActive none
  let state ← (state.committed none : Result InstallationState)
  writeState state
  removeJournal
  pure state

/-- An operation under the lock, which is released however it ends. -/
def locked (id : κ) (operation : Step κ InstallationState) : Step κ InstallationState := do
  lock id
  let outcome ← operation.attempt
  unlock id
  .done outcome

end Installer

inductive Call where
  | install (target : Generation)
  | recover
  | uninstallEntrypoints

/-- Any number of calls, by any processes, on one installation. -/
def installer {κ : Type} [DecidableEq κ] :
    Interleaving κ Call InstallAnswer (Prefix κ) String InstallationState where
  code id
    | .install target => Installer.locked id (Installer.installLocked target)
    | .recover => Installer.locked id Installer.recoverLocked
    | .uninstallEntrypoints => Installer.locked id Installer.uninstallLocked
  bury := Installer.release

end Idk.Install
