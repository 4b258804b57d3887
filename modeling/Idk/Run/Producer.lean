import Idk.Run.ResultStore

/-!
# What a task reports

The result document and the event stream that a task may write
(`structured_result.rs`, `result_store.rs`), and what finalization keeps of them: a
summary of the document and the progress that the events show.
-/

namespace Idk

open Idk.Logic

structure ProducerFormats extends StoreFormats where
  decoder : Json.Decoder

/-- `safe`. -/
def safe (value : String) (limit : Nat) : String :=
  String.ofList ((value.toList.filter (!isControl ·)).take limit)

/-! ## Reading a producer's file -/

/-- What `read_input` meets: no file, an error, or a file with the length its metadata
    had and the bytes that were then read. -/
inductive ProducerFile where
  | missing
  | failed (error : String)
  | present (isFile : Bool) (length : UInt64) (content : List UInt8) (unchanged : Bool)

inductive Input where
  | missing
  | oversize (observed : Nat)
  | bytes (content : List UInt8)

/-- `read_input`. -/
def ProducerFile.readInput (file : ProducerFile) (limit : Nat) : Result Input :=
  match file with
  | .missing => .ok .missing
  | .failed error => .error error
  | .present isFile length content unchanged => do
    ensure isFile "producer result must be a regular file"
    if limit < length.toNat then
      return .oversize length.toNat
    let content := content.take (limit + 1)
    if limit < content.length then
      return .oversize content.length
    ensure unchanged "producer result changed while reading; snapshot unavailable"
    return .bytes content

/-! ## The result document -/

def supported (schema : String) (version : Nat) : Bool :=
  (schema == "ici.next.run" && version == 2) || (schema == "lens.result" && version == 1)

/-- `unsupported`: the schema that a document claims and this program does not know. -/
def unsupported (document : Json) : Option (String × Nat) := do
  let schema ← (← document.field "schema_id").asStr
  let version ← (← document.field "schema_version").asNat
  if supported schema version then none else some (safe schema 128, version)

/-- `text`: a string that is there and not empty. -/
def producerText (document : Json) (pointer : List String) : Result String :=
  context (((document.pointer pointer).bind Json.asStr).filter (· != ""))
    ("missing nonempty string /" ++ "/".intercalate pointer)

/-- What a document says of its producer.  `serde_json` keeps the fields of an object in the
    order of their names. -/
structure Claimed where
  producer : String
  producerVersion : String
  complete : Option Bool
  identity : Json
  scope : Json

def orNull (value : Option Json) : Json := value.getD .null

def claimedByIci (document : Json) : Result Claimed := do
  let _ ← producerText document ["run_id"]
  ["identity", "scope", "execution", "gate", "publication"].forM fun key =>
    ensure ((document.field key).any Json.isObj) ("missing " ++ key ++ " object")
  ensure ((document.field "checks").any fun value => value.isNull || value.asArr.isSome)
    "ici v2 requires checks; null means unknown check scope"
  let version ← producerText document ["producer", "ici_version"]
  return {
    producer := "ici"
    producerVersion := version
    complete := (document.pointer ["execution", "required_complete"]).bind Json.asBool
    identity := .obj [
      ("fingerprint", orNull (document.pointer ["identity", "fingerprint_version"])),
      ("policy", orNull (document.pointer ["identity", "policy_digest"])),
      ("producer", orNull (document.field "producer")),
      ("toolchain", orNull (document.pointer ["identity", "toolchain_digest"]))]
    scope := orNull (document.field "scope") }

def claimedByLens (document : Json) (runId : String) : Result Claimed := do
  let name ← producerText document ["producer", "name"]
  ensure (name == "lens") "unexpected Lens producer"
  ensure ((document.field "complete").any (·.asBool.isSome)) "Lens complete must be boolean"
  ["execution", "source"].forM fun key =>
    ensure ((document.field key).any Json.isObj) ("missing " ++ key ++ " object")
  ensure ((document.field "run_id").any fun value => value.isNull || value.asStr.isSome)
    "Lens run_id must be string or null"
  ((document.field "run_id").bind Json.asStr).forM fun claimed =>
    ensure (claimed == runId) "Lens run_id differs from owning idk invocation"
  let version ← producerText document ["producer", "version"]
  return {
    producer := "lens"
    producerVersion := version
    complete := (document.field "complete").bind Json.asBool
    identity := .obj [
      ("cwd", orNull (document.pointer ["execution", "cwd"])),
      ("producer", orNull (document.field "producer")),
      ("source", orNull (document.field "source"))]
    scope := .obj [
      ("domain_schema", orNull (document.pointer ["data", "schema"])),
      ("source", orNull (document.field "source"))] }

/-- The arms of the match on the schema. -/
def claimedBy (document : Json) (runId schema : String) (version : Nat) : Result Claimed :=
  if schema = "ici.next.run" ∧ version = 2 then claimedByIci document
  else if schema = "lens.result" ∧ version = 1 then claimedByLens document runId
  else .error "unsupported result schema"

def checkFinding (finding : Json) : Result Unit := do
  let _ ← producerText finding ["message"]
  let _ ← producerText finding ["severity"]

/-- A short text somewhere in the document. -/
def brief (document : Json) (pointer : List String) : Option String :=
  ((document.pointer pointer).bind Json.asStr).map (safe · 64)

section Result

variable (formats : ProducerFormats)

/-- `json_digest`. -/
def jsonDigest (value : Json) : String := formats.sha256 value.encode.toByteArray.toList

def summarize (document : Json) (runId : String) : Result ResultSummary := do
  let schema ← producerText document ["schema_id"]
  let version ← context ((document.field "schema_version").bind Json.asNat)
    "missing schema_version"
  let claimed ← claimedBy document runId schema version
  ensure (claimed.producerVersion.utf8ByteSize ≤ 256) "producer version exceeds limit"
  let producerRunId := (document.field "run_id").bind Json.asStr
  ensure (producerRunId.all (·.utf8ByteSize ≤ 256)) "producer run ID exceeds limit"
  let findings ← context ((document.field "findings").bind Json.asArr) "missing findings array"
  findings.forM checkFinding
  return {
    schemaId := schema
    schemaVersion := version
    producer := claimed.producer
    producerVersion := claimed.producerVersion
    producerRunId := producerRunId
    findingsCount := findings.length
    complete := claimed.complete
    selectedGate := brief document ["gate", "selected"]
    workspaceGate := brief document ["gate", "workspace"]
    scopeKind := brief document ["scope", "kind"]
    identityDigest := jsonDigest formats claimed.identity
    scopeDigest := jsonDigest formats claimed.scope }

/-- What the stored bytes are found to be. -/
def inspected (runId : String) (bytes : List UInt8) (body : BodyReference) : StructuredResult :=
  match formats.decoder.decode bytes with
  | .error error => .invalid (safe error 512) (some body)
  | .ok document =>
    match unsupported document with
    | some (schemaId, schemaVersion) => .unsupported schemaId schemaVersion (some body)
    | none =>
      match summarize formats document runId with
      | .ok summary => .stored summary body
      | .error error => .invalid (safe error 512) (some body)

/-- `capture_bytes`. -/
def captureBytes (answers : StoreAnswers) (runId : String) (bytes : List UInt8)
    (bodies : Bodies) : StructuredResult × Bodies :=
  if maxResultBytes < bytes.length then (.oversize maxResultBytes bytes.length, bodies)
  else
    match bodies.put formats.toStoreFormats answers runId bytes false with
    | (.ok (.ok body), bodies) => (inspected formats runId bytes body, bodies)
    | (.ok (.error state), bodies) => (state, bodies)
    | (.error error, bodies) => (.storageFailed (safe error 512), bodies)

/-- `capture`. -/
def capture (answers : StoreAnswers) (runId : String) (file : ProducerFile) (bodies : Bodies) :
    StructuredResult × Bodies :=
  match file.readInput maxResultBytes with
  | .ok .missing => (.missing, bodies)
  | .ok (.oversize observed) => (.oversize maxResultBytes observed, bodies)
  | .ok (.bytes bytes) => captureBytes formats answers runId bytes bodies
  | .error error => (.invalid (safe error 512) none, bodies)

end Result

/-! ## The event stream -/

/-- `split_inclusive` at line breaks. -/
def splitInclusive : List UInt8 → List (List UInt8)
  | [] => []
  | byte :: rest =>
    if byte = 10 then [byte] :: splitInclusive rest
    else
      match splitInclusive rest with
      | [] => [[byte]]
      | line :: lines => (byte :: line) :: lines

def EventProgress.missing : EventProgress where
  state := .missing
  bytesObserved := 0
  eventsObserved := 0
  invalidEvents := 0
  sequenceGaps := 0
  truncatedTail := false
  latest := none
  error := none
  body := none

/-- The progress so far, the last sequence number and the producer of the stream. -/
structure Observing where
  progress : EventProgress
  previous : Option Nat
  producerId : Option String

namespace Observing

def start (bytes : Nat) (expected : Option String) : Observing where
  progress := { EventProgress.missing with state := .observed, bytesObserved := bytes }
  previous := none
  producerId := expected

/-- The event that a line holds. -/
def eventOf (decoder : Json.Decoder) (observing : Observing) (raw : List UInt8) :
    Result ProgressEvent := do
  ensure (raw.length ≤ 65536) "event line exceeds limit"
  let value ← decoder.decode raw
  ensure ((value.field "schema_id").bind Json.asStr == some "ici.next.event" &&
    (value.field "schema_version").bind Json.asNat == some 1) "unsupported event schema"
  let producer ← producerText value ["run_id"]
  ensure (producer.utf8ByteSize ≤ 256) "event run ID exceeds limit"
  ensure (observing.producerId.all (· == producer))
    "event run ID differs from result or preceding events"
  let seq ← context ((value.field "seq").bind Json.asNat) "event seq missing"
  ensure (observing.previous.all (· < seq)) "event sequence repeated or decreased"
  let _ ← producerText value ["timestamp"]
  let eventType ← producerText value ["event_type"]
  ensure (eventType.utf8ByteSize ≤ 128) "event type exceeds limit"
  return {
    seq := seq
    eventType := safe eventType 128
    producerRunId := producer
    taskId := ((value.field "task_id").bind Json.asStr).map (safe · 256)
    message := safe (((value.field "message").bind Json.asStr).getD "") 1024 }

/-- The number of the next event leaves a gap after the last one, or before the first. -/
def gap (observing : Observing) (event : ProgressEvent) : Bool :=
  match observing.previous with
  | none => 1 < event.seq
  | some last => saturatingAdd last 1 < event.seq

/-- One complete line. -/
def line (decoder : Json.Decoder) (observing : Observing) (raw : List UInt8) : Observing :=
  let progress := observing.progress
  match observing.eventOf decoder raw with
  | .ok event =>
    { progress := { progress with
        sequenceGaps := progress.sequenceGaps + if observing.gap event then 1 else 0
        eventsObserved := progress.eventsObserved + 1
        latest := some event }
      previous := some event.seq
      producerId := some event.producerRunId }
  | .error error =>
    { observing with progress := { progress with
        invalidEvents := progress.invalidEvents + 1
        error := some (safe error 512) } }

/-- The loop over the lines; only the last one may lack its line break, which ends it. -/
def lines (decoder : Json.Decoder) (observing : Observing) : List (List UInt8) → Observing
  | [] => observing
  | raw :: rest =>
    if raw.getLast? = some 10 then (observing.line decoder raw).lines decoder rest
    else { observing with progress := { observing.progress with truncatedTail := true } }

end Observing

/-- The state that the lines leave. -/
def EventProgress.judged (progress : EventProgress) : EventProgress :=
  if 0 < progress.invalidEvents ∨ 0 < progress.sequenceGaps ∨ progress.truncatedTail then
    { progress with state := .partialStream }
  else progress

/-- What becomes of the progress when its bytes have been handed to the store. -/
def EventProgress.kept (progress : EventProgress)
    (stored : Result (Except StructuredResult BodyReference)) : EventProgress :=
  match stored with
  | .ok (.ok body) => { progress with body := some body }
  | .ok (.error _) =>
    { progress with
      state := .storageFailed
      error := some "result storage budget cannot retain events" }
  | .error error => { progress with state := .storageFailed, error := some (safe error 512) }

/-- The progress that the bytes of a stream show. -/
def observed (decoder : Json.Decoder) (expected : Option String) (bytes : List UInt8) :
    EventProgress :=
  ((Observing.start bytes.length expected).lines decoder (splitInclusive bytes)).progress.judged

/-- `events`. -/
def events (formats : ProducerFormats) (answers : StoreAnswers) (runId : String)
    (file : ProducerFile) (expected : Option String) (retain : Bool) (bodies : Bodies) :
    EventProgress × Bodies :=
  match file.readInput maxEventBytes with
  | .ok .missing => (.missing, bodies)
  | .ok (.oversize size) =>
    ({ EventProgress.missing with
      state := .oversize
      bytesObserved := size
      error := some "events exceed 8 MiB observation limit" }, bodies)
  | .error error =>
    ({ EventProgress.missing with state := .invalid, error := some (safe error 512) }, bodies)
  | .ok (.bytes bytes) =>
    let progress := observed formats.decoder expected bytes
    if retain && !bytes.isEmpty then
      let (stored, bodies) := bodies.put formats.toStoreFormats answers runId bytes true
      (progress.kept stored, bodies)
    else (progress, bodies)

/-- The two snapshots that finalization takes, `finish_observed`. -/
def reports (formats : ProducerFormats) (answers later : StoreAnswers) (runId : String)
    (file stream : ProducerFile) (bodies : Bodies) : StructuredResult × EventProgress :=
  let (result, bodies) := capture formats answers runId file bodies
  let expected := result.summary.bind (·.producerRunId)
  (result, (events formats later runId stream expected true bodies).1)

end Idk
