import Idk.Git.Parse
import Idk.Logic.Framed
import Idk.Model.Project
import Idk.Run.Encoding

/-!
# The digests that approvals are bound to

`source_digest` and `task_digest` (`model.rs`) and `digest` (`task.rs`).  Each is the hash of
fields that are written behind their lengths; what is hashed has a definition of its own.
-/

namespace Idk.Model

open Idk.Logic
open Idk.Git (bytesOf)

/-! ## Definitions as JSON -/

def environmentJson (env : Environment) : Json :=
  .obj (env.map fun entry => (entry.1, .str entry.2))

def NativeShell.toJson (native : NativeShell) : Json := .obj [
  ("args", .list native.args .str),
  ("env", environmentJson native.env)]

def SourceSpec.toJson (source : SourceSpec) : Json := .obj [
  ("path", source.path.toJson),
  ("args", .list source.args .str)]

def TaskExecution.toJson : TaskExecution → Json
  | .process program args env => .obj [
    ("kind", .str "process"),
    ("program", program.toJson),
    ("args", .list args .str),
    ("env", environmentJson env)]
  | .script interpreter args text env => .obj [
    ("kind", .str "script"),
    ("interpreter", interpreter.toJson),
    ("args", .list args .str),
    ("script", .str text),
    ("env", environmentJson env)]

def TaskStep.toJson (step : TaskStep) : Json := .obj [
  ("name", .str step.name),
  ("command", .str step.command)]

def FailurePolicy.toJson : FailurePolicy → Json
  | .stop => .str "Stop"
  | .continue => .str "Continue"

def TaskLogging.toJson : TaskLogging → Json
  | .raw => .str "Raw"
  | .disabled => .str "Disabled"

/-- An execution that is not there is left out. -/
def TaskDefinition.toJson (task : TaskDefinition) : Json := .obj <|
  (task.execution.toList.map fun execution => ("execution", execution.toJson)) ++ [
    ("id", .str task.id),
    ("name", .str task.name),
    ("command", .str task.command),
    ("cwd", task.cwd.toJson),
    ("sources", .list task.sources SourceSpec.toJson),
    ("artifact", .optional task.artifact PathBuf.toJson),
    ("approved_digest", .optional task.approvedDigest .str),
    ("steps", .list task.steps TaskStep.toJson),
    ("failure_policy", task.failurePolicy.toJson),
    ("logging", task.logging.toJson),
    ("interactive", .bool task.interactive),
    ("build_outputs", .list task.buildOutputs PathBuf.toJson),
    ("artifact_from_task", .optional task.artifactFromTask .str),
    ("timeout_seconds", .optional task.timeoutSeconds .nat)]

def Repository.toJson (repository : Repository) : Json := .obj [
  ("root", repository.root.toJson),
  ("git_dir", repository.gitDir.toJson),
  ("common_dir", repository.commonDir.toJson)]

/-- `serde_json::to_vec`. -/
def toVec (value : Json) : List UInt8 := bytesOf (String.ofList value.compact)

/-! ## Hashing -/

/-- `to_be_bytes` of a `u64`. -/
def bigEndian (value : Nat) : List UInt8 := (places 8 value).reverse

/-- `hash_field`, on what has been hashed so far. -/
def hashField (digest bytes : List UInt8) : List UInt8 := digest ++ bigEndian bytes.length ++ bytes

/-- `format!("{:x}", ..)`. -/
def hexadecimal (bytes : List UInt8) : String :=
  String.ofList (bytes.flatMap fun byte =>
    [Nat.digitChar (byte.toNat / 16), Nat.digitChar (byte.toNat % 16)])

/-- The bytes of a path. -/
def osBytes (path : PathBuf) : List UInt8 := bytesOf path.text

/-- What the file system answers. -/
structure Files where
  canonicalize : PathBuf → Result PathBuf
  /-- Whether it is a regular file, and its size. -/
  metadata : PathBuf → Result (Bool × Nat)
  /-- The file that is opened: whether it is a regular one, and what is read of it. -/
  opened : PathBuf → Option (Result Bool × Result (List UInt8))

/-- The most that a script may hold, 4 MiB. -/
def sourceBytes : Nat := 4 * 1024 * 1024

/-- What the loop of `hash_sources` reads of a script. -/
def readSource (files : Files) (source : SourceSpec) : Result (List UInt8) := do
  let canonical ← context (files.canonicalize source.path).toOption
    ("cannot resolve initialization script " ++ source.path.text)
  let (isFile, size) ← files.metadata canonical
  ensure isFile "initialization source must be a regular file"
  ensure (size ≤ sourceBytes) "initialization script exceeds 4 MiB"
  let (isFile, bytes) ← context (files.opened canonical)
    ("cannot read initialization script " ++ source.path.text)
  ensure (← isFile) "initialization source must be a regular file"
  let bytes := (← bytes).take (sourceBytes + 1)
  ensure (bytes.length ≤ sourceBytes) "initialization script exceeds 4 MiB"
  return bytes

/-- A round of the loop of `hash_sources`. -/
def hashSource (files : Files) (digest : List UInt8) (source : SourceSpec) :
    Result (List UInt8) := do
  let digest := hashField digest (osBytes source.path)
  let digest := hashField digest (toVec (.list source.args .str))
  let bytes ← readSource files source
  return hashField digest bytes

/-- `hash_sources`. -/
def hashSources (files : Files) (digest : List UInt8) (sources : List SourceSpec) :
    Result (List UInt8) :=
  sources.foldlM (hashSource files) (hashField digest (bigEndian sources.length))

/-- What `source_digest` hashes. -/
def sourcePreimage (files : Files) (shell : ShellConfig) : Result (List UInt8) :=
  let digest := hashField [] (bytesOf "idk-source-definition-v2")
  let digest := hashField digest (osBytes shell.executable)
  let digest := hashField digest [if shell.login then 1 else 0]
  let digest := hashField digest (osBytes shell.initCwd)
  let digest :=
    match shell.native with
    | some native => hashField digest (toVec native.toJson)
    | none => digest
  hashSources files digest shell.sources

/-- The definition without its approval. -/
def TaskDefinition.unapproved (task : TaskDefinition) : TaskDefinition :=
  { task with approvedDigest := none }

/-- What `task_digest` hashes of the definition. -/
def hashDefinition (files : Files) (digest : List UInt8) (task : TaskDefinition) :
    Result (List UInt8) := do
  let digest := hashField digest (toVec task.unapproved.toJson)
  let digest := hashField digest (bytesOf task.command)
  let digest := hashField digest (osBytes task.cwd)
  let digest ← hashSources files digest task.sources
  match task.artifact with
  | some artifact => return hashField digest (osBytes artifact)
  | none => return digest

variable (sha256 : List UInt8 → List UInt8)

/-- `source_digest`. -/
def sourceDigest (files : Files) (shell : ShellConfig) : Result String := do
  return hexadecimal (sha256 (← sourcePreimage files shell))

/-- What `task_digest` hashes. -/
def taskPreimage (files : Files) (shell : ShellConfig) (task : TaskDefinition) :
    Result (List UInt8) := do
  let digest := hashField [] (bytesOf "idk-task-definition-v3")
  match task.execution with
  | none => do
    let source ← sourceDigest sha256 files shell
    hashDefinition files (hashField digest (bytesOf source)) task
  | some _ => hashDefinition files digest task

/-- `task_digest`. -/
def taskDigest (files : Files) (shell : ShellConfig) (task : TaskDefinition) : Result String := do
  return hexadecimal (sha256 (← taskPreimage sha256 files shell task))

/-- What `digest` (`task.rs`) hashes; `common` is the digest of the initialization. -/
def launchPreimage (files : Files) (project : Project) (task : TaskDefinition) (common : String) :
    Result (List UInt8) := do
  let digest := hashField [] (bytesOf "idk-approved-task-v1")
  let digest := hashField digest (bytesOf common)
  let digest := hashField digest (osBytes (← files.canonicalize project.root))
  let digest := hashField digest
    (toVec (.optional project.repositoryBinding Repository.toJson))
  let digest := hashField digest (bytesOf (← taskDigest sha256 files project.shell task))
  return hashField digest (osBytes (← files.canonicalize task.cwd))

/-- `digest` (`task.rs`). -/
def launchDigest (files : Files) (project : Project) (task : TaskDefinition) (common : String) :
    Result String := do
  return hexadecimal (sha256 (← launchPreimage sha256 files project task common))

end Idk.Model
