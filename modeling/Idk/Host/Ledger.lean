import Idk.Logic.Json
import Idk.Run.Records
import Idk.Text

/-!
# The stored session ledger

What `host-sessions.json` holds (`saved_state.rs`), the checks it must pass both when it
is read and before it is written, and its JSON.
-/

namespace Idk.Host

open Idk.Logic

def maxProjects : Nat := 128

def maxTerminals : Nat := 64

/-- `HOST_RECORD_LIMIT`, also `MAX_TRACKED` of the actor. -/
def hostRecordLimit : Nat := maxProjects * maxTerminals + maxTerminals

inductive SessionState where
  | preparing
  | running
  | closing
  | closed
  | exited
  | failed
  | unknown
deriving DecidableEq, Repr

def SessionState.isLive : SessionState → Bool
  | .preparing | .running | .closing => true
  | .closed | .exited | .failed | .unknown => false

structure HostRecord where
  sessionId : String
  projectId : String
  terminalId : String
  name : String
  persistent : Bool
  state : SessionState
  definitionRevision : Nat
  launchDigest : Option String
  exit : Option TerminalExit
  purpose : Option String
  runId : Option String
deriving DecidableEq, Repr

structure HostLedger where
  schema : Nat
  sessions : List HostRecord
deriving DecidableEq, Repr

/-- Whether a text parses as a UUID. -/
abbrev IsUuid := String → Bool

def validId (isUuid : IsUuid) (value : String) : Result Unit :=
  ensure (isUuid value) "invalid object id"

def HostRecord.validate (isUuid : IsUuid) (record : HostRecord) : Result Unit := do
  validId isUuid record.sessionId
  validId isUuid record.projectId
  validId isUuid record.terminalId
  validName record.name
  record.launchDigest.forM digest
  match record.purpose with
  | none => ensure record.runId.isNone "ordinary terminal record has a Run identity"
  | some "run" => do
    ensure (!record.persistent) "Run terminal cannot be a saved shell definition"
    record.runId.forM fun id => do
      validId isUuid id
      ensure (id == record.terminalId) "Run terminal identity mismatch"
  | some "editor" =>
    ensure (!record.persistent && record.runId.isNone) "invalid editor terminal identity"
  | some _ => .error "unsupported terminal purpose; record preserved"

/-- The loop over `sessions`; `seen` are the records before it. -/
def checkRecords (isUuid : IsUuid) (seen : List HostRecord) : List HostRecord → Result Unit
  | [] => .ok ()
  | record :: rest => do
    record.validate isUuid
    ensure (!seen.any (·.sessionId == record.sessionId) &&
      !seen.any fun other =>
        other.projectId == record.projectId && other.terminalId == record.terminalId)
      "duplicate session identity in host ledger; preserved"
    checkRecords isUuid (record :: seen) rest

def HostLedger.validate (isUuid : IsUuid) (ledger : HostLedger) : Result Unit := do
  ensure (ledger.schema == 1 && ledger.sessions.length ≤ hostRecordLimit)
    "unsupported or oversized host session ledger; preserved"
  checkRecords isUuid [] ledger.sessions

/-! ## As JSON -/

def SessionState.toJson : SessionState → Json
  | .preparing => .str "preparing"
  | .running => .str "running"
  | .closing => .str "closing"
  | .closed => .str "closed"
  | .exited => .str "exited"
  | .failed => .str "failed"
  | .unknown => .str "unknown"

def exitJson (exit : TerminalExit) : Json := .obj [
  ("code", .nat exit.code),
  ("signal", .optional exit.signal .str)]

def HostRecord.toJson (record : HostRecord) : Json := .obj [
  ("session_id", .str record.sessionId),
  ("project_id", .str record.projectId),
  ("terminal_id", .str record.terminalId),
  ("name", .str record.name),
  ("persistent", .bool record.persistent),
  ("state", record.state.toJson),
  ("definition_revision", .nat record.definitionRevision),
  ("launch_digest", .optional record.launchDigest .str),
  ("exit", .optional record.exit exitJson),
  ("purpose", .optional record.purpose .str),
  ("run_id", .optional record.runId .str)]

def HostLedger.toJson (ledger : HostLedger) : Json := .obj [
  ("schema", .nat ledger.schema),
  ("sessions", .list ledger.sessions HostRecord.toJson)]

end Idk.Host
