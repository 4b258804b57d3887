import Idk.Run.Producer

/-!
# Views of a stored result

`verified` and what is served through it (`result_store.rs`): pages of the raw body, pages
of its findings and its export.
-/

namespace Idk

open Idk.Logic

/-- `RAW_PAGE_BYTES`. -/
def rawPageBytes : Nat := 65536

/-- `FINDING_PAGE_ITEMS`. -/
def findingPageItems : Nat := 100

/-- `FINDING_PAGE_BYTES`. -/
def findingPageBytes : Nat := 65536

def StructuredResult.statusLabel : StructuredResult → String
  | .missing => "missing"
  | .invalid .. => "invalid"
  | .unsupported .. => "unsupported"
  | .oversize .. => "oversize"
  | .limited .. => "limited"
  | .storageFailed _ => "storage_failed"
  | .expired _ => "expired"
  | .tampered .. => "tampered"
  | .stored .. => "stored"
  | .available .. => "legacy_inline"

/-- Why no bytes are returned: `NotFound` is told apart from every other error. -/
inductive ReadFault where
  | notFound
  | other (error : String)

section

variable (formats : ProducerFormats) (answers : StoreAnswers)

/-- The bytes of a reference, as `verified` checks them. -/
def readBody (result : StructuredResult) (body : BodyReference) (content : List UInt8) :
    Result (List UInt8) := do
  let bytes ← answers.readPrivate (formats.display (body.named false)) maxResultBytes content
  ensure (bytes.length == body.bytes && formats.sha256 bytes == body.sha256)
    "stored result digest or byte length changed"
  match result with
  | .stored summary _ => do
    let document ← formats.decoder.decode bytes
    let found ← summarize formats document body.runId
    ensure (found == summary) "stored summary differs from immutable result body"
    return bytes
  | _ => return bytes

/-- What `verified` finds at the path of a reference. -/
def fetchBody (bodies : Bodies) (result : StructuredResult) (body : BodyReference) :
    Except ReadFault (List UInt8) :=
  match formats.checkPath body false >>= fun () => answers.read with
  | .error error => .error (.other error)
  | .ok () =>
    match bodies.lookup (body.named false) with
    | none => .error .notFound
    | some content =>
      match readBody formats answers result body content with
      | .ok bytes => .ok bytes
      | .error error => .error (.other error)

/-- `verified`. -/
def verified (bodies : Bodies) (result : StructuredResult) :
    StructuredResult × Option (List UInt8) :=
  match result.body with
  | none => (result, none)
  | some body =>
    match result with
    | .expired _ | .tampered _ _ => (result, none)
    | _ =>
      match fetchBody formats answers bodies result body with
      | .ok bytes => (result, some bytes)
      | .error .notFound => (.expired body, none)
      | .error (.other error) => (.tampered body (safe error 512), none)

/-! ## The raw body -/

/-- The bytes that `data_base64` encodes are kept as they are. -/
structure RawResultPage where
  result : StructuredResult
  offset : Nat
  nextOffset : Nat
  data : List UInt8
  eof : Bool

/-- `raw`. -/
def rawPage (bodies : Bodies) (result : StructuredResult) (offset limit : Nat) :
    Result RawResultPage := do
  ensure (1 ≤ limit && limit ≤ rawPageBytes) "raw result page limit must be 1–65536"
  let (result, found) := verified formats answers bodies result
  let bytes := found.getD []
  ensure (offset ≤ bytes.length || bytes.isEmpty) "result offset exceeds body length"
  let start := min offset bytes.length
  let ending := min (saturatingAdd start limit) bytes.length
  return {
    result := result
    offset := offset
    nextOffset := ending
    data := (bytes.take ending).drop start
    eof := ending == bytes.length }

/-! ## Findings -/

structure FindingLocation where
  path : String
  startLine : Option Nat
  startColumn : Option Nat
  endLine : Option Nat
  endColumn : Option Nat
deriving DecidableEq, Repr

structure StructuredFinding where
  bodySha256 : String
  index : Nat
  severity : String
  code : Option String
  provider : Option String
  message : String
  location : Option FindingLocation
  evidenceObject : Option String
  dataPointer : Option String
  truncated : Bool
deriving DecidableEq, Repr

def FindingLocation.toJson (location : FindingLocation) : Json := .obj [
  ("path", .str location.path),
  ("start_line", .optional location.startLine .nat),
  ("start_column", .optional location.startColumn .nat),
  ("end_line", .optional location.endLine .nat),
  ("end_column", .optional location.endColumn .nat)]

def StructuredFinding.toJson (finding : StructuredFinding) : Json := .obj [
  ("body_sha256", .str finding.bodySha256),
  ("index", .nat finding.index),
  ("severity", .str finding.severity),
  ("code", .optional finding.code .str),
  ("provider", .optional finding.provider .str),
  ("message", .str finding.message),
  ("location", .optional finding.location FindingLocation.toJson),
  ("evidence_object", .optional finding.evidenceObject .str),
  ("data_pointer", .optional finding.dataPointer .str),
  ("truncated", .bool finding.truncated)]

/-- `bounded`: the text that is shown, and whether it is not the whole. -/
def bounded (text : String) (limit : Nat) : String × Bool :=
  let shown := safe text limit
  (shown, shown.utf8ByteSize != text.utf8ByteSize)

/-- A text that may be missing. -/
def boundedOption (text : Option String) (limit : Nat) : Option String × Bool :=
  match text with
  | some text => ((bounded text limit).map some id)
  | none => (none, false)

/-- A path that is not shortened: it would name another file. -/
def locationOf (primary : Option Json) (path : Option String) : Option FindingLocation :=
  let position := fun key => ((primary.bind (·.field key)).bind Json.asNat)
  (path.filter fun path =>
      path != "" && path.utf8ByteSize ≤ 4096 && !path.toList.any isControl).map fun path =>
    { path := path
      startLine := position "start_line"
      startColumn := position "start_column"
      endLine := position "end_line"
      endColumn := position "end_column" }

/-- `finding`. -/
def findingOf (value : Json) (sha : String) (index : Nat) : StructuredFinding :=
  let text := fun key => (value.field key).bind Json.asStr
  let message := bounded ((text "message").getD "") 8192
  let severity := bounded ((text "severity").getD "unknown") 64
  let code := boundedOption
    (((value.field "rule_id").orElse fun () => value.field "code").bind Json.asStr) 256
  let provider := boundedOption (text "provider") 256
  let primary := value.field "primary_location"
  let path := ((primary.bind (·.field "path")).orElse fun () =>
    value.pointer ["evidence", "path"]).bind Json.asStr
  let location := locationOf primary path
  let evidenceObject := boundedOption
    ((value.pointer ["evidence", "object"]).bind Json.asStr) 512
  let dataPointer := boundedOption
    ((value.pointer ["evidence", "data_pointer"]).bind Json.asStr) 1024
  { bodySha256 := sha
    index := index
    severity := severity.1
    code := code.1
    provider := provider.1
    message := message.1
    location := location
    evidenceObject := evidenceObject.1
    dataPointer := dataPointer.1
    truncated := message.2 || severity.2 || code.2 || provider.2 || evidenceObject.2 ||
      dataPointer.2 || (path.isSome && location.isNone) }

/-- The loop of `findings`: it ends at the first finding that does not fit any more. -/
def takeFindings (sha : String) (charged : Nat) : List (Nat × Json) → List StructuredFinding
  | [] => []
  | (index, value) :: rest =>
    let finding := findingOf value sha index
    let size := finding.toJson.width
    if findingPageBytes - 4096 < charged + size then []
    else finding :: takeFindings sha (charged + size) rest

structure FindingPage where
  result : StructuredResult
  offset : Nat
  nextOffset : Nat
  total : Nat
  findings : List StructuredFinding
  more : Bool

/-- The page of a body that is there. -/
def pageOf (result : StructuredResult) (sha : String) (findings : List Json) (offset limit : Nat) :
    Result FindingPage := do
  ensure (offset ≤ findings.length) "finding offset exceeds result"
  let shown := takeFindings sha 0
    (((findings.mapIdx Prod.mk).drop offset).take limit)
  let next := offset + shown.length
  return {
    result := result
    offset := offset
    nextOffset := next
    total := findings.length
    findings := shown
    more := next < findings.length }

/-- `findings`. -/
def findingsPage (bodies : Bodies) (result : StructuredResult) (offset limit : Nat) :
    Result FindingPage := do
  ensure (1 ≤ limit && limit ≤ findingPageItems) "finding page limit must be 1–100"
  let (result, bytes) := verified formats answers bodies result
  let empty : FindingPage :=
    { result := result, offset := offset, nextOffset := offset, total := 0, findings := [],
      more := false }
  match result.summary, bytes, result.body with
  | some _, some bytes, some body => do
    let document ← formats.decoder.decode bytes
    let findings ← context ((document.field "findings").bind Json.asArr)
      "stored findings unavailable"
    pageOf result body.sha256 findings offset limit
  | _, _, _ => return empty

/-! ## Export -/

structure ExportedResult where
  path : PathBuf
  sha256 : String
  bytes : Nat

/-- What the destination of an export answers. -/
structure ExportAnswers where
  /-- `create_new`. -/
  create : Result Unit
  /-- `write_all` and the two `sync_all`. -/
  write : Result Unit

/-- `export`, with what the new file holds when it succeeds. -/
def exportResult (destination : ExportAnswers) (bodies : Bodies) (result : StructuredResult)
    (path : PathBuf) : Result (ExportedResult × List UInt8) := do
  ensure (path.head? == some "/") "export destination must be absolute"
  let (state, found) := verified formats answers bodies result
  let bytes ← context found ("cannot export " ++ state.statusLabel ++ " result")
  destination.create
  destination.write
  return ({ path := path, sha256 := formats.sha256 bytes, bytes := bytes.length }, bytes)

end

end Idk
