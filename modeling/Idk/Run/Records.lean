import Idk.Base

/-!
# Records of a run

The values that a run's history is made of (`run_wire.rs`, `structured_result.rs`,
`result_store.rs`, `discovery.rs`, `task.rs`).
-/

namespace Idk

inductive RunState where
  | preparing
  | running
  | cancelling
  | succeeded
  | failed
  | cancelled
  | unknown
deriving DecidableEq, Repr

def RunState.isLive : RunState → Bool
  | .preparing | .running | .cancelling => true
  | _ => false

inductive LogState where
  | disabled
  | recording
  | complete
  | limited
  | writeFailed
  | expired
  | partialLog
deriving DecidableEq, Repr

structure LogDescriptor where
  runId : String
  generation : Nat
  state : LogState
  bytes : Nat
  observedBytes : Nat
  limitBytes : Nat
  mergedPty : Bool
  fileIdentity : Option (Nat × Nat)
deriving DecidableEq, Repr

structure StepResult where
  index : Nat
  name : String
  exitCode : Option Int
deriving DecidableEq, Repr

structure SourceObservation where
  identity : Option PathBuf
  generation : Option Nat
  gitHead : Option String
  dirty : Option Bool
  statusDigest : Option String
  error : Option String
deriving DecidableEq, Repr

/-- `discovery::FileIdentity`. -/
structure FileIdentity where
  device : Nat
  inode : Nat
  size : Nat
  mtimeSeconds : Int
  mtimeNanos : Int
  ctimeSeconds : Int
  ctimeNanos : Int
deriving DecidableEq, Repr

structure ArtifactSnapshot where
  path : PathBuf
  sha256 : String
  size : Nat
  identity : FileIdentity
deriving DecidableEq, Repr

structure ArtifactMeasurement where
  snapshot : Option ArtifactSnapshot
  error : Option String
  observedAtMs : Nat
deriving DecidableEq, Repr

structure ArtifactRelation where
  path : Option PathBuf
  fromTask : Option String
  fromRun : Option String
  verifiedBytes : Bool
  snapshot : Option ArtifactSnapshot
  snapshotError : Option String
  observedAtMs : Option Nat
deriving DecidableEq, Repr

structure BodyReference where
  runId : String
  sha256 : String
  bytes : Nat
deriving DecidableEq, Repr

structure ResultSummary where
  schemaId : String
  schemaVersion : Nat
  producer : String
  producerVersion : String
  producerRunId : Option String
  findingsCount : Nat
  complete : Option Bool
  selectedGate : Option String
  workspaceGate : Option String
  scopeKind : Option String
  identityDigest : String
  scopeDigest : String
deriving DecidableEq, Repr

/-- The document of the old inline form is kept as its JSON text. -/
inductive StructuredResult where
  | missing
  | invalid (error : String) (body : Option BodyReference)
  | unsupported (schemaId : String) (schemaVersion : Nat) (body : Option BodyReference)
  | oversize (limitBytes observedBytes : Nat)
  | limited (limitBytes requiredBytes : Nat)
  | storageFailed (error : String)
  | expired (body : BodyReference)
  | tampered (body : BodyReference) (error : String)
  | stored (summary : ResultSummary) (body : BodyReference)
  | available (idkRunId : String) (path : PathBuf) (sha256 schemaId : String)
      (schemaVersion : Nat) (producerVersion : String) (producerRunId : Option String)
      (document : String)
deriving DecidableEq, Repr

namespace StructuredResult

def body : StructuredResult → Option BodyReference
  | .stored _ body | .expired body | .tampered body _ => some body
  | .invalid _ body | .unsupported _ _ body => body
  | _ => none

def summary : StructuredResult → Option ResultSummary
  | .stored summary _ => some summary
  | _ => none

end StructuredResult

inductive EventState where
  | missing
  | observed
  | partialStream
  | invalid
  | oversize
  | expired
  | tampered
  | storageFailed
deriving DecidableEq, Repr

structure ProgressEvent where
  seq : Nat
  eventType : String
  producerRunId : String
  taskId : Option String
  message : String
deriving DecidableEq, Repr

structure EventProgress where
  state : EventState
  bytesObserved : Nat
  eventsObserved : Nat
  invalidEvents : Nat
  sequenceGaps : Nat
  truncatedTail : Bool
  latest : Option ProgressEvent
  error : Option String
  body : Option BodyReference
deriving DecidableEq, Repr

structure RunInfo where
  runId : String
  operationId : String
  projectId : String
  taskId : String
  name : String
  sessionId : Option String
  state : RunState
  definitionRevision : Nat
  launchDigest : String
  initializationDigest : String
  cwd : PathBuf
  sourceRoots : List PathBuf
  buildOutputs : List PathBuf
  startedAtMs : Nat
  finishedAtMs : Option Nat
  timeoutSeconds : Option Nat
  timeoutRequested : Bool
  cancelRequested : Bool
  cleanupConfirmed : Bool
  exitCode : Option Nat
  signal : Option String
  steps : List StepResult
  structuredResult : Option StructuredResult
  pinned : Bool
  events : Option EventProgress
  sourceStart : SourceObservation
  sourceEnd : Option SourceObservation
  sourceChanged : Option Bool
  artifact : ArtifactRelation
  log : LogDescriptor
  error : Option String
deriving DecidableEq, Repr

structure RunStartReply where
  run : RunInfo
  existing : Bool

structure RetiredRun where
  runId : String
  result : Option BodyReference
  events : Option BodyReference
  logIdentity : Option (Nat × Nat)
  runtimeIdentity : Option (Nat × Nat)
deriving DecidableEq, Repr

/-- `terminal::TerminalExit`. -/
structure TerminalExit where
  code : Nat
  signal : Option String
deriving DecidableEq, Repr

/-! ## What is to be launched -/

structure Repository where
  root : PathBuf
  gitDir : PathBuf
  commonDir : PathBuf
deriving DecidableEq, Repr

def Repository.identity (repository : Repository) : PathBuf := repository.gitDir

inductive TaskExecution where
  | process (program : PathBuf) (args : List String) (env : List (String × String))
  | script (interpreter : PathBuf) (args : List String) (script : String)
      (env : List (String × String))
deriving DecidableEq, Repr

structure TaskStep where
  name : String
  command : String
deriving DecidableEq, Repr

inductive FailurePolicy where
  | stop
  | continue
deriving DecidableEq, Repr

inductive TaskLogging where
  | raw
  | disabled
deriving DecidableEq, Repr

/-- The fields of a task that starting and finishing a run read. -/
structure TaskDefinition where
  execution : Option TaskExecution
  id : String
  name : String
  command : String
  cwd : PathBuf
  artifact : Option PathBuf
  steps : List TaskStep
  failurePolicy : FailurePolicy
  logging : TaskLogging
  interactive : Bool
  buildOutputs : List PathBuf
  artifactFromTask : Option String
  timeoutSeconds : Option Nat
deriving DecidableEq, Repr

/-- `task::steps`. -/
def TaskDefinition.allSteps (task : TaskDefinition) : List TaskStep :=
  if task.steps.isEmpty then [{ name := task.name, command := task.command }] else task.steps

/-- The part of a shell plan that a run changes; its environment is sorted by name. -/
structure ShellPlan where
  shell : PathBuf
  startCwd : PathBuf
  env : BTreeMap String
  command : Option String

structure TaskLaunchPlan where
  projectId : String
  task : TaskDefinition
  shell : ShellPlan
  definitionRevision : Nat
  launchDigest : String
  initializationDigest : String
  repository : Option Repository
  sourceRoots : List PathBuf

end Idk
