import Idk.Base
import Idk.Logic.Interleaving
import Idk.Logic.Replacement

/-!
# Writing a declaration

`write_declaration` and `read_bytes` (`portable.rs`) on one `idk.toml`, with the inodes
that its name refers to one after another.  A lock on a descriptor is a lock on the
inode that was opened, which keeps its number while it is open; the lock file of a
data directory excludes only the writers that use this data directory.

Before every action the environment says whether it fails, and which inode a new file
gets.  `log` keeps what each publication replaced; no action reads it.
-/

namespace Idk.Config

open Idk.Logic (Program Interleaving Replacement)

abbrev Bytes := List UInt8

/-- `DECLARATION_LIMIT`. -/
def declarationLimit : Nat := 1024 * 1024

/-- `DECLARATION`. -/
def declarationName : String := "idk.toml"

/-- The file system as far as writers of this declaration use it; `δ` are data
    directories, `κ` calls. -/
structure Disk (κ δ : Type) where
  /-- The inode the path names. -/
  named : Option Nat
  content : Nat → Bytes
  /-- The holders of the `portable-{digest}.lock` of each data directory. -/
  locks : δ → Option κ
  /-- The descriptors that calls keep open. -/
  opened : List (κ × Nat)
  /-- The calls whose descriptor holds the `flock` of an inode. -/
  flocks : Nat → Option κ
  /-- The temporary files that are not published. -/
  temporary : List (κ × Nat)
  log : List (Replacement κ (Option Bytes))

structure DiskAnswer where
  io : Result Unit
  inode : Nat

/-- The format: the parser of a draft and the digest of a content. -/
structure DeclarationFormat where
  parse : Bytes → Result Unit
  digest : Bytes → String

structure WriteDeclaration (δ : Type) where
  store : δ
  path : PathBuf
  expectedDigest : Option String
  draft : Bytes

namespace Disk

variable {κ δ : Type}

/-- What a reader of the path finds. -/
def current (disk : Disk κ δ) : Option Bytes := disk.named.map disk.content

/-- The file system gives a new file an inode that nothing refers to. -/
def inUse (disk : Disk κ δ) (inode : Nat) : Bool :=
  disk.named == some inode || disk.opened.any (·.2 == inode) || disk.temporary.any (·.2 == inode)

variable [DecidableEq κ]

/-- A call's descriptor is closed, which releases its lock. -/
def close (id : κ) (disk : Disk κ δ) : Disk κ δ :=
  { disk with
    opened := disk.opened.filter (·.1 ≠ id)
    flocks := fun inode => if disk.flocks inode = some id then none else disk.flocks inode }

def unlock (id : κ) (disk : Disk κ δ) : Disk κ δ :=
  { disk with locks := fun store => if disk.locks store = some id then none else disk.locks store }

def discard (id : κ) (disk : Disk κ δ) : Disk κ δ :=
  { disk with temporary := disk.temporary.filter (·.1 ≠ id) }

/-- The path now names the call's temporary file. -/
def publish (id : κ) (inode : Nat) (disk : Disk κ δ) : Disk κ δ :=
  { disk.discard id with
    named := some inode
    log := ⟨id, disk.current, some (disk.content inode)⟩ :: disk.log }

/-- What is left when a call's process ends: its descriptors and locks are gone, its
    temporary file stays. -/
def bury (id : κ) (disk : Disk κ δ) : Disk κ δ := (disk.close id).unlock id

end Disk

namespace Declaration

variable {κ δ : Type} [DecidableEq κ] [DecidableEq δ]

abbrev Step (κ δ α : Type) := Program DiskAnswer (Disk κ δ) String α

/-- One access to the file system. -/
def access {α : Type} (run : Disk κ δ → Disk κ δ × Result α) : Step κ δ α :=
  .action fun disk answer => some <|
    match answer.io with
    | .ok () => run disk
    | .error error => (disk, .error error)

/-- A step that no writer can tell. -/
def unseen : Step κ δ Unit := access fun disk => (disk, .ok ())

/-- `FileLock::acquire` in the data directory, when it stops trying. -/
def acquire (id : κ) (store : δ) : Step κ δ Unit := access fun disk =>
  match disk.locks store with
  | none => ({ disk with locks := Function.update disk.locks store (some id) }, .ok ())
  | some _ => (disk, .error "resource is locked; retry after the other operation finishes")

/-- Opens the path and locks the descriptor. -/
def openManifest (id : κ) : Step κ δ Nat := do
  let inode ← access fun disk =>
    match disk.named with
    | some inode => ({ disk with opened := (id, inode) :: disk.opened }, .ok inode)
    | none => (disk, .error "declaration disappeared before edit")
  unseen -- a regular file
  access fun disk =>
    match disk.flocks inode with
    | none => ({ disk with flocks := Function.update disk.flocks inode (some id) }, .ok inode)
    | some _ => (disk, .error "declaration writer is busy; draft preserved")

/-- `read_bytes(path)`, from what one open of the path found. -/
def readBytes : Step κ δ (Option Bytes) := access fun disk =>
  (disk, do
    ensure (disk.current.all (·.length ≤ declarationLimit)) "declaration exceeds 1 MiB"
    pure disk.current)

/-- `check`: the path still names the descriptor's inode, and has the expected content. -/
def check (format : DeclarationFormat) (manifest : Option Nat) (expected : Option String) :
    Step κ δ Unit := do
  if let some held := manifest then
    access fun disk =>
      match disk.named with
      | none => (disk, .error "declaration path changed while waiting for writer")
      | some named =>
        (disk, ensure (held == named)
          "declaration was replaced while editing; original and draft preserved")
  let current ← readBytes
  (ensure (current.map format.digest == expected)
    "idk.toml changed externally; original and draft preserved" : Result Unit)

/-- Creates the temporary file. -/
def create (id : κ) : Step κ δ Nat := .action fun disk answer =>
  match answer.io with
  | .error error => some (disk, .error error)
  | .ok () =>
    if disk.inUse answer.inode then none
    else some ({ disk with temporary := (id, answer.inode) :: disk.temporary }, .ok answer.inode)

def write (inode : Nat) (draft : Bytes) : Step κ δ Unit := access fun disk =>
  ({ disk with content := Function.update disk.content inode draft }, .ok ())

/-- `hard_link(temporary, path)`. -/
def hardLink (id : κ) (inode : Nat) : Step κ δ Unit := access fun disk =>
  match disk.named with
  | none => (disk.publish id inode, .ok ())
  | some _ => (disk, .error "idk.toml appeared during initialization; existing file preserved")

/-- `rename(temporary, path)`. -/
def rename (id : κ) (inode : Nat) : Step κ δ Unit := access fun disk =>
  (disk.publish id inode, .ok ())

/-- The temporary file is written, the expectation checked once more, the file published. -/
def replace (format : DeclarationFormat) (id : κ) (manifest : Option Nat)
    (expected : Option String) (draft : Bytes) : Step κ δ Unit := do
  let inode ← create id
  if manifest.isSome then unseen -- permissions
  write inode draft
  unseen -- sync
  check format manifest expected
  if expected.isNone then
    hardLink id inode
    unseen -- remove the temporary name
  else
    rename id inode
  unseen -- sync of the directory

/-- `write_declaration` with the lock of the data directory held. -/
def writeLocked (format : DeclarationFormat) (id : κ) (expected : Option String) (draft : Bytes) :
    Step κ δ String := do
  let manifest ← if expected.isSome then some <$> openManifest id else pure none
  check format manifest expected
  unseen -- the mode of the file
  let result ← (replace format id manifest expected draft).attempt
  if result.isOk = false then
    .action fun disk answer => some (if answer.io.isOk then disk.discard id else disk, .ok ())
  .done (result.map fun _ => format.digest draft)

/-- `write_declaration`. -/
def writeDeclaration (format : DeclarationFormat) (id : κ) (call : WriteDeclaration δ) :
    Step κ δ String := do
  (ensure (call.path.head? == some "/" && call.path.getLast? == some declarationName)
    "declaration target must be an absolute idk.toml path" : Result Unit)
  (ensure (call.draft.length ≤ declarationLimit) "declaration exceeds 1 MiB" : Result Unit)
  (format.parse call.draft : Result Unit)
  acquire id call.store
  let outcome ← (writeLocked format id call.expectedDigest call.draft).attempt
  .action fun disk _ => some (disk.close id, .ok ()) -- the descriptor
  .action fun disk _ => some (disk.unlock id, .ok ()) -- the lock of the data directory
  .done outcome

end Declaration

/-- Any number of writers of one declaration, in any processes. -/
def declaration {κ δ : Type} [DecidableEq κ] [DecidableEq δ] (format : DeclarationFormat) :
    Interleaving κ (WriteDeclaration δ) DiskAnswer (Disk κ δ) String String where
  code := Declaration.writeDeclaration format
  bury := Disk.bury

end Idk.Config
