import Idk.Base

/-!
# Installation state

`Generation`, `InstallationState` and `Journal` (`install.rs`) with the version checks
they rely on (`package.rs`).  The inventory is the list of a `BTreeMap`'s entries in
the order of their keys.
-/

namespace Idk.Install

/-- `BINARY`. -/
def binary : String := "idk-linux-x86_64"

/-- `MAX_GENERATIONS`. -/
def maxGenerations : Nat := 128

/-- `env!("CARGO_PKG_VERSION")`. -/
def cargoPkgVersion : String := "0.6.0"

/-! ## Versions -/

structure Version where
  major : Nat
  minor : Nat
  patch : Nat
deriving DecidableEq, Repr

/-- The order of the tuples. -/
def Version.le (left right : Version) : Bool :=
  left.major < right.major || (left.major == right.major &&
    (left.minor < right.minor || (left.minor == right.minor && left.patch ≤ right.patch)))

/-- `piece.parse::<u32>()` of a piece in canonical notation. -/
def parsePiece (piece : String) : Option Nat :=
  piece.toNat?.filter fun number => number < 2 ^ 32 && toString number == piece

/-- `version_tuple`, which starts with `valid_version`. -/
def versionTuple (version : String) : Result Version :=
  match (version.splitOn ".").map parsePiece with
  | [some major, some minor, some patch] => .ok ⟨major, minor, patch⟩
  | _ => .error "version must use three canonical numeric components"

def validVersion (version : String) : Result Unit := do
  let _ ← versionTuple version

def validDigest (value : String) : Result Unit :=
  ensure (value.utf8ByteSize == 64 &&
    value.toList.all fun char => char.isDigit || ('a' ≤ char && char ≤ 'f'))
    "SHA-256 must contain 64 lowercase hexadecimal digits"

/-! ## Generations -/

structure Generation where
  name : String
  version : String
  bundleSha256 : String
  binarySha256 : String
deriving DecidableEq, Repr

def Generation.validate (generation : Generation) : Result Unit := do
  validVersion generation.version
  validDigest generation.bundleSha256
  validDigest generation.binarySha256
  ensure (generation.name == generation.version ++ "-" ++ generation.bundleSha256)
    "invalid installation generation identity"

/-- `BTreeMap<String, Generation>`. -/
abbrev Inventory := List (String × Generation)

namespace Inventory

def get? (inventory : Inventory) (name : String) : Option Generation :=
  (inventory.find? (·.1 == name)).map (·.2)

def insert (inventory : Inventory) (name : String) (generation : Generation) : Inventory :=
  match inventory with
  | [] => [(name, generation)]
  | (key, entry) :: rest =>
    if key < name then (key, entry) :: insert rest name generation
    else if key = name then (name, generation) :: rest
    else (name, generation) :: (key, entry) :: rest

end Inventory

structure InstallationState where
  schema : Nat
  active : Option String
  committedVersionFloor : Option String
  generations : Inventory
deriving DecidableEq, Repr

namespace InstallationState

/-- `InstallationState::default`. -/
def default : InstallationState where
  schema := 2
  active := none
  committedVersionFloor := none
  generations := []

/-- The version of a generation of the inventory. -/
def versionOf (state : InstallationState) (name : String) : Result Version := do
  let entry ← context (state.generations.get? name) "active generation is missing from inventory"
  versionTuple entry.version

def validate (state : InstallationState) : Result Unit := do
  ensure (state.schema == 2 && state.generations.length ≤ maxGenerations)
    "unsupported or oversized installation state; preserved"
  state.generations.forM fun entry => do
    entry.2.validate
    ensure (entry.1 == entry.2.name) "installation generation key differs from identity"
  ensure (state.active.all fun name => (state.generations.get? name).isSome)
    "active generation is missing from inventory"
  state.committedVersionFloor.forM fun floor => do
    validVersion floor
    ensure (state.generations.any fun entry => entry.2.version == floor)
      "committed version floor is missing from preserved inventory"
  state.active.forM fun active => do
    let floor ← context state.committedVersionFloor
      "active installation has no committed version floor"
    let version ← state.versionOf active
    let floor ← versionTuple floor
    ensure (version.le floor) "active generation exceeds the committed version floor"

/-- Whether committing `target` raises the floor. -/
def raisesFloor (state : InstallationState) (target : Generation) : Result Bool :=
  match state.committedVersionFloor with
  | none => .ok true
  | some floor => do
    let version ← versionTuple target.version
    let floor ← versionTuple floor
    pure !(version.le floor)

/-- The state with `target` active. -/
def committed (state : InstallationState) (target : Option Generation) :
    Result InstallationState := do
  let activated := { state with active := target.map (·.name) }
  let after ←
    match target with
    | none => pure activated
    | some target => do
      if ← state.raisesFloor target then
        pure { activated with committedVersionFloor := some target.version }
      else pure activated
  after.validate
  pure after

end InstallationState

structure Journal where
  schema : Nat
  before : InstallationState
  target : Option Generation
deriving DecidableEq, Repr

/-- The checks of `read_journal`. -/
def Journal.validate (journal : Journal) : Result Unit := do
  ensure (journal.schema == 1) "unsupported activation journal; preserved"
  journal.before.validate
  journal.target.forM fun target => do
    target.validate
    ensure (journal.before.generations.get? target.name == some target)
      "journal target differs from sealed inventory"

end Idk.Install
