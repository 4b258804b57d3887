import Idk.Install.State
import Idk.Logic.Cuts
import Idk.Logic.Json
import Idk.Package.Elf

/-!
# The members of a bundle and its notices

The loop over the archive, `verify_checksums` and `verify_inventory` (`package.rs`).  SHA-256 and
the JSON decoder are parameters; an archive is the list of what its entries are read as.
-/

namespace Idk.Package

open Idk.Logic

/-- `BINARY`, `MANIFEST`, `CHECKSUMS`, `INVENTORY` and `NOTICES`. -/
def binary : String := Install.binary
def manifestName : String := "idk-linux-x86_64.manifest.json"
def checksums : String := "idk-native-SHA256SUMS"
def inventoryName : String := "idk-third-party-licenses.json"
def noticesName : String := "idk-THIRD-PARTY-NOTICES.txt"

/-- `FILES`. -/
def fileNames : List String := [binary, manifestName, checksums, inventoryName, noticesName]

/-- The files of a bundle. -/
abbrev Files := BTreeMap (List UInt8)

/-! ## The archive -/

/-- An entry of the archive.  A field of its header may be malformed, its data may be cut off. -/
structure Entry where
  /-- A USTAR header of a regular file. -/
  regular : Bool
  path : List UInt8
  mode : Result Nat
  uid : Result Nat
  gid : Result Nat
  size : Nat
  bytes : Result (List UInt8)

/-- `MAX_UNPACKED`. -/
def maxUnpacked : Nat := 128 * 1024 * 1024

def memberLimit (name : String) : Nat :=
  if name = manifestName ∨ name = checksums then 1024 * 1024
  else if name = inventoryName then 16 * 1024 * 1024
  else 64 * 1024 * 1024

/-- The mode and the owner of an entry; what is read behind a field that differs is not. -/
def normalized (entry : Entry) (name : String) : Result Bool := do
  let mode ← entry.mode
  if mode ≠ (if name = binary then 0o755 else 0o644) then return false
  let uid ← entry.uid
  if uid ≠ 0 then return false
  let gid ← entry.gid
  return gid == 0

/-- The loop of `from_bytes` over the entries of the archive. -/
def collect : List (Result Entry) → Files → Nat → Result Files
  | [], files, _ => do
    ensure (files.size == fileNames.length) "bundle is missing required files"
    return files
  | entry :: rest, files, unpacked => do
    let entry ← entry.mapError fun _ => "read bundle archive header"
    ensure (files.size < fileNames.length) "bundle has extra or duplicate archive entries"
    ensure entry.regular
      "bundle accepts only regular USTAR files; links and special entries are forbidden"
    let name ← context (String.fromUTF8? ⟨entry.path.toArray⟩) "bundle filename is not UTF-8"
    ensure (fileNames.contains name && !files.contains name)
      "unexpected or duplicate bundle filename"
    let plain ← normalized entry name
    ensure plain "bundle file permissions or owner metadata are not normalized"
    ensure (entry.size ≤ memberLimit name) "bundle member exceeds its size limit"
    let unpacked ← context (checkedAdd unpacked entry.size) "bundle size overflow"
    ensure (unpacked ≤ maxUnpacked) "unpacked bundle exceeds 128 MiB"
    let bytes ← entry.bytes.mapError fun _ => "read complete bundle member"
    ensure (bytes.length == entry.size) "bundle member is truncated"
    collect rest (files.insert name bytes) unpacked

/-! ## Checksums -/

/-- A line without the carriage return before its line feed. -/
def chomp (line : List Char) : List Char :=
  if line.getLast? = some '\r' then line.dropLast else line

/-- `str::lines`, behind what is read of the line so far. -/
def lines (line : List Char) : List Char → List (List Char)
  | [] => if line = [] then [] else [line]
  | char :: rest =>
    if char = '\n' then chomp line :: lines [] rest else lines (line ++ [char]) rest

/-- The loop over the lines of the checksum file. -/
def checkLines (sha256 : List UInt8 → String) (files : Files) :
    List (List Char) → BTreeMap String → Checked (BTreeMap String)
  | [], observed => return observed
  | line :: rest, observed => do
    let (digest, name) ← context (cutAt [' ', ' '] line) "invalid checksum line"
    let digest := String.ofList digest
    let name := String.ofList name
    Install.validDigest digest
    ensure (name != checksums && files.contains name && !observed.contains name)
      "unexpected or duplicate checksum target"
    let bytes ← (files[name]? : Option (List UInt8))
    ensure (sha256 bytes == digest) "bundle member checksum mismatch"
    checkLines sha256 files rest (observed.insert name digest)

/-- `verify_checksums`. -/
def verifyChecksums (sha256 : List UInt8 → String) (files : Files) : Checked Unit := do
  let bytes ← (files[checksums]? : Option (List UInt8))
  let text ← context (String.fromUTF8? ⟨bytes.toArray⟩) "checksum file is not UTF-8"
  let observed ← checkLines sha256 files (lines [] text.toList) ∅
  ensure (observed.size == fileNames.length - 1) "checksum file does not cover every bundle member"

/-! ## Notices -/

/-- What `verify_inventory` reads of a `BundleManifest`. -/
structure BundleManifest where
  target : String
  toolchain : String
  cargoLockSha256 : String
  provenance : BTreeMap Json

/-- `value[key]`: what is missing is null. -/
def index (key : String) (value : Json) : Json := (value.field key).getD .null

def isText (text : String) (value : Json) : Bool := value.asStr == some text

/-- The five components that are linked in. -/
def staticComponents : List String :=
  ["rust-standard-library", "compiler-builtins", "musl", "llvm-libunwind", "compiler-rt-crt"]

/-- `BTreeSet::eq`. -/
def sameSet (left right : List String) : Bool :=
  left.all right.contains && right.all left.contains

/-- The loop's body for one document: its extent. -/
def checkDocument (sha256 : List UInt8 → String) (notices : List UInt8) (document : Json) :
    Checked (Nat × Nat) := do
  let start ← context (index "notice_offset" document).asNat "invalid notice offset"
  let size ← context (index "notice_size" document).asNat "invalid notice size"
  let stop ← context (checkedAdd start size) "notice extent overflow"
  ensure (0 < size && stop ≤ notices.length) "notice document exceeds body"
  let source ← context (index "source_sha256" document).asStr "invalid notice source identity"
  Install.validDigest source
  ensure ((index "source_size" document).asNat.any (0 < ·)) "notice source is empty"
  let text ← slice notices start stop
  ensure (isText (sha256 text) (index "notice_sha256" document))
    "notice document text differs from inventory"
  return (start, stop)

def checkDocuments (sha256 : List UInt8 → String) (notices : List UInt8) :
    List Json → List (Nat × Nat) → Checked (List (Nat × Nat))
  | [], extents => return extents
  | document :: rest, extents => do
    let extent ← checkDocument sha256 notices document
    ensure (extents.length + 1 ≤ 16384) "too many notice documents"
    checkDocuments sha256 notices rest (extents ++ [extent])

def checkComponents (sha256 : List UInt8 → String) (notices : List UInt8) :
    List Json → List (Nat × Nat) → Checked (List (Nat × Nat))
  | [], extents => return extents
  | component :: rest, extents => do
    let documents ← context (index "documents" component).asArr "missing full notice documents"
    ensure (0 < documents.length && documents.length ≤ 1024)
      "notice document list is empty or oversized"
    let extents ← checkDocuments sha256 notices documents extents
    checkComponents sha256 notices rest extents

/-- The order of pairs. -/
def extentLe (left right : Nat × Nat) : Bool :=
  left.1 < right.1 || (left.1 == right.1 && left.2 ≤ right.2)

/-- `verify_inventory`. -/
def verifyInventory (sha256 : List UInt8 → String) (decode : List UInt8 → Result Json)
    (manifest : BundleManifest) (inventoryBytes notices : List UInt8) : Checked Unit := do
  let inventory ← (decode inventoryBytes).mapError fun _ => "invalid dependency notice inventory"
  ensure ((index "schema_version" inventory).asNat == some 1 &&
    (index "notices_complete" inventory).asBool == some true)
    "unsupported or incomplete notice inventory"
  ensure (isText manifest.target (index "target" inventory) &&
    isText manifest.toolchain (index "toolchain" inventory) &&
    isText manifest.cargoLockSha256 (index "cargo_lock_sha256" inventory))
    "notice inventory belongs to different build inputs"
  ensure (isText (sha256 notices) (index "notices_sha256" inventory))
    "notice text differs from inventory"
  let policy ← context (index "runtime_notice_policy_sha256" inventory).asStr
    "missing runtime notice policy identity"
  Install.validDigest policy
  ensure ((manifest.provenance["runtime_notice_policy_sha256"]?).bind Json.asStr == some policy)
    "runtime notice policy differs from manifest"
  let packages ← context (index "packages" inventory).asArr "missing package notice inventory"
  let runtime ← context (index "runtime_components" inventory).asArr
    "missing static runtime notices"
  ensure (0 < packages.length && packages.length ≤ 4096 && runtime.length == 5)
    "notice component inventory is incomplete or oversized"
  ensure (sameSet (runtime.map fun component => (index "id" component).asStr.getD "")
    staticComponents) "static runtime notice component is missing"
  let extents ← checkComponents sha256 notices (packages ++ runtime) []
  let sorted := extents.mergeSort extentLe
  ensure ((sorted.zip sorted.tail).all fun (left, right) => left.2 ≤ right.1)
    "notice document extents overlap"

end Idk.Package
