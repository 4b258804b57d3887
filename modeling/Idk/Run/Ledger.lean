import Idk.Run.Records
import Idk.Text

/-!
# The stored run ledger

`saved_state.rs`: what `runs.json` holds and the checks it must pass both when it
is read and before it is written.
-/

namespace Idk

/-- `RUN_RECORD_LIMIT`, also `HISTORY_LIMIT` of `run.rs`. -/
def runRecordLimit : Nat := 64

def logByteLimit : Nat := 4 * 1024 * 1024

def pinnedRunLimit : Nat := 16

def pinnedResultBytes : Nat := 128 * 1024 * 1024

def maxResultBytes : Nat := 16 * 1024 * 1024

def maxEventBytes : Nat := 8 * 1024 * 1024

def maxAutoArtifactBytes : Nat := 16 * 1024 * 1024

/-- The external formats the checks ask about: whether a text parses as a UUID, and
    how long a value is when encoded as JSON. -/
structure Formats where
  isUuid : String → Bool
  resultLength : StructuredResult → Nat
  eventsLength : EventProgress → Nat

def Formats.validId (formats : Formats) (value : String) : Result Unit :=
  ensure (formats.isUuid value) "invalid object id"

structure RunLedger where
  schema : Nat
  runs : List RunInfo
  retired : List RetiredRun
deriving DecidableEq, Repr

/-- `retained_bytes`. -/
def RunInfo.retainedBytes (run : RunInfo) : Nat :=
  saturatingAdd
    (saturatingAdd (((run.structuredResult.bind (·.body)).map (·.bytes)).getD 0)
      (((run.events.bind (·.body)).map (·.bytes)).getD 0))
    run.log.bytes

def observation (source : SourceObservation) : Result Unit := do
  source.identity.forM absolutePath
  source.gitHead.forM objectId
  source.statusDigest.forM digest

/-- The check of one retired body, `result` or `events`. -/
def RetiredRun.checkBody (retired : RetiredRun) (limit : Nat) (body : BodyReference) :
    Result Unit := do
  ensure (body.runId == retired.runId && body.bytes ≤ limit) "invalid retired body identity"
  digest body.sha256

/-- One round of the loop over `retired`, with the ids seen so far. -/
def RunLedger.checkRetired (formats : Formats) (ledger : RunLedger) (seen : List String)
    (retired : RetiredRun) : Result (List String) := do
  formats.validId retired.runId
  ensure (!seen.contains retired.runId && !ledger.runs.any (·.runId == retired.runId))
    "retired Run is duplicated or still retained"
  retired.result.forM (retired.checkBody maxResultBytes)
  retired.events.forM (retired.checkBody maxEventBytes)
  return retired.runId :: seen

def RunInfo.checkResult (formats : Formats) (schema : Nat) (run : RunInfo)
    (result : StructuredResult) : Result Unit := do
  ensure (schema == 1 || !(result matches .available ..))
    "new run ledger cannot inline result bodies"
  result.body.forM fun body => do
    ensure (body.runId == run.runId && body.bytes ≤ maxResultBytes)
      "invalid result body reference"
    digest body.sha256
  ensure (schema != 2 || formats.resultLength result ≤ 8192)
    "result summary exceeds ledger limit"

def RunInfo.checkEvents (formats : Formats) (run : RunInfo) (events : EventProgress) :
    Result Unit := do
  ensure (formats.eventsLength events ≤ 8192) "event summary exceeds ledger limit"
  events.body.forM fun body => do
    ensure (body.runId == run.runId && body.bytes ≤ maxEventBytes)
      "invalid event body reference"
    digest body.sha256

def RunInfo.checkSteps (run : RunInfo) : Result Unit :=
  run.steps.zipIdx.forM fun (step, index) => do
    ensure (step.index == index) "run step order is invalid"
    validName step.name
    ensure (step.exitCode.all fun code => 0 ≤ code && code ≤ 255) "invalid step exit code"

def RunInfo.checkArtifact (formats : Formats) (schema : Nat) (run : RunInfo) :
    Result Unit := do
  run.artifact.path.forM absolutePath
  run.artifact.fromTask.forM formats.validId
  run.artifact.fromRun.forM formats.validId
  run.artifact.snapshot.forM fun snapshot => do
    ensure (schema == 2 && run.artifact.path == some snapshot.path &&
      snapshot.size ≤ maxAutoArtifactBytes && snapshot.size == snapshot.identity.size &&
      run.artifact.observedAtMs.isSome) "invalid artifact byte observation"
    digest snapshot.sha256
  run.artifact.snapshotError.forM fun error =>
    ensure (error.utf8ByteSize ≤ 2048 && !hasControl error) "invalid artifact observation error"
  ensure (!run.artifact.verifiedBytes ||
    (schema == 2 && run.artifact.snapshot.isSome && run.artifact.fromRun.isSome &&
      run.artifact.fromTask.isSome && run.cleanupConfirmed))
    "artifact equality lacks measured bytes or predecessor"

/-- The checks of one record that look at this record only. -/
def RunInfo.check (formats : Formats) (schema : Nat) (run : RunInfo) : Result Unit := do
  run.structuredResult.forM (run.checkResult formats schema)
  run.events.forM (run.checkEvents formats)
  ensure (!run.pinned || (!run.state.isLive && run.cleanupConfirmed))
    "pinned run must have confirmed cleanup"
  validName run.name
  absolutePath run.cwd
  digest run.launchDigest
  digest run.initializationDigest
  ensure (!run.steps.isEmpty && run.steps.length ≤ 64 && run.sourceRoots.length ≤ 128 &&
    run.buildOutputs.length ≤ 32) "run ledger record exceeds definition bounds"
  run.checkSteps
  (run.sourceRoots ++ run.buildOutputs).forM absolutePath
  run.checkArtifact formats schema
  ensure (run.timeoutSeconds.all fun seconds => 1 ≤ seconds && seconds ≤ 604800)
    "invalid run timeout"
  ensure (run.log.runId == run.runId && 0 < run.log.generation &&
    run.log.limitBytes ≤ logByteLimit && run.log.bytes ≤ run.log.limitBytes)
    "invalid run log descriptor; ledger preserved"
  observation run.sourceStart
  run.sourceEnd.forM observation

/-- The identities met so far in the loop over `runs`. -/
structure SeenRuns where
  ids : List String
  operations : List String
  sessions : List String

/-- One round of the loop over `runs`. -/
def RunLedger.checkRun (formats : Formats) (ledger : RunLedger) (seen : SeenRuns)
    (run : RunInfo) : Result SeenRuns := do
  formats.validId run.runId
  formats.validId run.operationId
  formats.validId run.projectId
  formats.validId run.taskId
  ensure (!seen.ids.contains run.runId && !seen.operations.contains run.operationId)
    "duplicate run or operation identity; ledger preserved"
  run.sessionId.forM fun id => do
    formats.validId id
    ensure (!seen.sessions.contains id) "duplicate Run session identity; ledger preserved"
  run.check formats ledger.schema
  return {
    ids := run.runId :: seen.ids
    operations := run.operationId :: seen.operations
    sessions := run.sessionId.toList ++ seen.sessions }

/-- The version and record-count bounds. -/
def RunLedger.withinLimits (ledger : RunLedger) : Bool :=
  (ledger.schema == 1 || ledger.schema == 2) &&
    ledger.runs.countP (!·.pinned) ≤ runRecordLimit &&
    ledger.runs.countP (·.pinned) ≤ pinnedRunLimit &&
    (ledger.schema == 2 || ledger.runs.all (!·.pinned))

def RunLedger.validate (formats : Formats) (ledger : RunLedger) : Result Unit := do
  ensure ledger.withinLimits "unsupported or oversized run ledger; preserved"
  ensure (((ledger.runs.filter (·.pinned)).map (·.retainedBytes)).foldl saturatingAdd 0 ≤
    pinnedResultBytes) "pinned run budget exceeds 128 MiB"
  ensure (ledger.retired.length ≤ runRecordLimit &&
    (ledger.schema == 2 || ledger.retired.isEmpty)) "invalid retired Run cleanup journal"
  let _ ← ledger.retired.foldlM (ledger.checkRetired formats) []
  let _ ← ledger.runs.foldlM (ledger.checkRun formats)
    { ids := [], operations := [], sessions := [] }

/-! ## What a valid ledger guarantees -/

theorem foldlM_cons_ok {α β : Type} {step : β → α → Result β} {start last : β} {head : α}
    {rest : List α} (folded : (head :: rest).foldlM step start = .ok last) :
    ∃ middle, step start head = .ok middle ∧ rest.foldlM step middle = .ok last := by
  rw [List.foldlM_cons] at folded
  exact bind_eq_ok.mp folded

section Valid

variable {formats : Formats} {ledger : RunLedger}

theorem RunLedger.validate_limits (valid : ledger.validate formats = .ok ()) :
    ledger.withinLimits = true := by
  obtain ⟨_, limits, _⟩ := bind_eq_ok.mp valid
  exact ensure_eq_ok.mp limits

theorem RunLedger.checkRun_ok {seen next : SeenRuns} {run : RunInfo}
    (checked : ledger.checkRun formats seen run = .ok next) :
    run.runId ∉ seen.ids ∧ run.operationId ∉ seen.operations ∧
      run.check formats ledger.schema = .ok () ∧ next.ids = run.runId :: seen.ids ∧
      next.operations = run.operationId :: seen.operations := by
  simp only [RunLedger.checkRun, bind_eq_ok, ensure_eq_ok] at checked
  obtain ⟨_, _, _, _, _, _, _, _, _, unseen, _, _, _, record, finished⟩ := checked
  cases finished
  simp only [Bool.and_eq_true, Bool.not_eq_true', List.contains_eq_mem, decide_eq_false_iff_not]
    at unseen
  exact ⟨unseen.1, unseen.2, record, rfl, rfl⟩

/-- The loop over the records sees each identity once and checks each record. -/
theorem RunLedger.checkRuns_ok {runs : List RunInfo} {seen last : SeenRuns}
    (checked : runs.foldlM (ledger.checkRun formats) seen = .ok last) :
    (runs.map (·.runId)).Nodup ∧ (∀ run ∈ runs, run.runId ∉ seen.ids) ∧
      (runs.map (·.operationId)).Nodup ∧ (∀ run ∈ runs, run.operationId ∉ seen.operations) ∧
      ∀ run ∈ runs, run.check formats ledger.schema = .ok () := by
  induction runs generalizing seen with
  | nil => simp
  | cons head rest inductionHypothesis =>
    obtain ⟨middle, first, others⟩ := foldlM_cons_ok checked
    obtain ⟨freshId, freshOperation, record, ids, operations⟩ := checkRun_ok first
    obtain ⟨idsNodup, idsUnseen, operationsNodup, operationsUnseen, records⟩ :=
      inductionHypothesis others
    simp only [ids, operations, List.mem_cons, not_or] at idsUnseen operationsUnseen
    refine ⟨?_, ?_, ?_, ?_, ?_⟩
    · rw [List.map_cons, List.nodup_cons]
      refine ⟨fun member => ?_, idsNodup⟩
      obtain ⟨other, held, same⟩ := List.mem_map.mp member
      exact (idsUnseen other held).1 same
    · intro run member
      rcases List.mem_cons.mp member with rfl | member
      · exact freshId
      · exact (idsUnseen run member).2
    · rw [List.map_cons, List.nodup_cons]
      refine ⟨fun member => ?_, operationsNodup⟩
      obtain ⟨other, held, same⟩ := List.mem_map.mp member
      exact (operationsUnseen other held).1 same
    · intro run member
      rcases List.mem_cons.mp member with rfl | member
      · exact freshOperation
      · exact (operationsUnseen run member).2
    · intro run member
      rcases List.mem_cons.mp member with rfl | member
      · exact record
      · exact records run member

theorem RunLedger.validate_runs (valid : ledger.validate formats = .ok ()) :
    (ledger.runs.map (·.runId)).Nodup ∧ (ledger.runs.map (·.operationId)).Nodup ∧
      ∀ run ∈ ledger.runs, run.check formats ledger.schema = .ok () := by
  simp only [RunLedger.validate, bind_eq_ok] at valid
  obtain ⟨_, _, _, _, _, _, _, _, _, checked, _⟩ := valid
  obtain ⟨ids, _, operations, _, records⟩ := checkRuns_ok checked
  exact ⟨ids, operations, records⟩

theorem RunLedger.validate_retired (valid : ledger.validate formats = .ok ()) :
    ledger.retired.length ≤ runRecordLimit := by
  simp only [RunLedger.validate, bind_eq_ok, ensure_eq_ok, Bool.and_eq_true,
    decide_eq_true_eq] at valid
  obtain ⟨_, _, _, _, _, journal, _⟩ := valid
  exact journal.1

/-- A pinned record of a valid ledger is finished and cleaned up. -/
theorem RunInfo.check_pinned {schema : Nat} {run : RunInfo}
    (checked : run.check formats schema = .ok ()) (pinned : run.pinned = true) :
    run.state.isLive = false ∧ run.cleanupConfirmed = true := by
  simp only [RunInfo.check, bind_eq_ok, ensure_eq_ok] at checked
  obtain ⟨_, _, _, _, _, settled, _⟩ := checked
  simpa [pinned] using settled

end Valid

end Idk
