import Idk.Run.ResultViews
import Std.Data.TreeSet

/-!
# Comparing two results

`compare` with `compare_ici` and `compare_lens` (`result_store.rs`).  The documents are the
decoded bodies of the two results.
-/

namespace Idk

open Idk.Logic

/-- `BTreeSet<String>`. -/
abbrev BTreeSet := Std.TreeSet String

/-- `check.get(key) == other.get(key)`. -/
def sameField (check other : Json) (key : String) : Bool :=
  match check.field key, other.field key with
  | some left, some right => left.same right
  | none, none => true
  | _, _ => false

/-- A name of a check: not missing and not empty. -/
def checkName (check : Json) (key : String) : Option Json := do
  let value ← check.field key
  let name ← value.asStr
  if name.isEmpty then none else some (.str name)

variable (formats : ProducerFormats)

/-- `check_key`: the identity of a check, if it is complete. -/
def checkKey (check : Json) : Option String := do
  let names ← ["task_id", "check_id", "component_id", "language", "scope_digest"].mapM
    (checkName check)
  let parts := ["analysis_unit_id", "variant"].map fun key => (check.field key).getD .null
  return jsonDigest formats (.arr (names ++ parts))

/-- `new`, `unchanged`, `resolved`, `carried` and whether the comparison is complete. -/
structure Delta where
  new : BTreeSet
  unchanged : BTreeSet
  resolved : BTreeSet
  carried : BTreeSet
  complete : Bool

/-- A check of the current result that succeeded with all its evidence. -/
def succeeded (check : Json) : Bool :=
  (check.field "evidence_complete").bind Json.asBool == some true &&
    (check.field "state").bind Json.asStr == some "SUCCEEDED"

/-- A baseline check that a finding may come from. -/
def matching (check finding : Json) : Bool :=
  (check.field "task_id").isSome && sameField check finding "task_id" &&
    sameField check finding "component_id"

def fingerprint (finding : Json) : Result String := producerText finding ["fingerprint"]

def fingerprints (findings : List Json) : Result BTreeSet := do
  let prints ← findings.mapM fingerprint
  return .ofList prints

def cancelled (document : Json) : Option Bool :=
  (document.pointer ["execution", "cancelled"]).bind Json.asBool

/-- The keys of the completed checks. -/
def completedKeys (checks : List Json) : BTreeSet :=
  .ofList ((checks.filter succeeded).filterMap (checkKey formats))

/-- What the loop of `compare_ici` asks of one baseline finding. -/
def settles (oldChecks : List Json) (completed : BTreeSet) (finding : Json) : Bool :=
  let found := oldChecks.filter (matching · finding)
  !found.isEmpty && found.all fun check => (checkKey formats check).any (completed.contains ·)

/-- One round of the loop over the baseline findings. -/
def resolveFinding (oldChecks : List Json) (completed current resolved : BTreeSet)
    (finding : Json) : Result BTreeSet := do
  let print ← fingerprint finding
  if current.contains print then return resolved
  else if settles formats oldChecks completed finding then return resolved.insert print
  else return resolved

/-- The loop over the baseline findings. -/
def resolveAll (complete : Bool) (oldChecks : List Json) (completed current : BTreeSet)
    (oldFindings : List Json) : Result BTreeSet :=
  if complete then oldFindings.foldlM (resolveFinding formats oldChecks completed current) ∅
  else .ok ∅

/-- `compare_ici`. -/
def compareIci (old new : Json) (oldSummary newSummary : ResultSummary) : Result Delta := do
  ensure ((old.pointer ["identity", "fingerprint_version"]).bind Json.asStr ==
      some "ici.next.fingerprint.v3")
    "unsupported or unknown ici fingerprint normalization"
  let _ ← producerText old ["identity", "policy_digest"]
  let _ ← producerText new ["identity", "policy_digest"]
  let _ ← producerText old ["identity", "toolchain_digest"]
  let _ ← producerText new ["identity", "toolchain_digest"]
  let oldChecks ← context ((old.field "checks").bind Json.asArr)
    "baseline completed check scope is unknown"
  let newChecks ← context ((new.field "checks").bind Json.asArr)
    "current completed check scope is unknown"
  let completed := completedKeys formats newChecks
  let oldFindings ← context ((old.field "findings").bind Json.asArr) "baseline findings missing"
  let newFindings ← context ((new.field "findings").bind Json.asArr) "current findings missing"
  let previous ← fingerprints oldFindings
  let current ← fingerprints newFindings
  let complete := oldSummary.complete == some true && newSummary.complete == some true &&
    cancelled old == some false && cancelled new == some false
  let resolved ← resolveAll formats complete oldChecks completed current oldFindings
  let absent := previous.filter (!current.contains ·)
  let carried := absent.filter (!resolved.contains ·)
  return {
    new := current.filter (!previous.contains ·)
    unchanged := current.filter previous.contains
    resolved := resolved
    carried := carried
    complete := complete && carried.isEmpty }

/-! ## Results of Lens -/

/-- The identity of a finding: what it is about or, if that is not said, its message. -/
def lensKey (finding : Json) : Result (String × Bool) := do
  let code ← producerText finding ["code"]
  let object := (finding.pointer ["evidence", "object"]).bind Json.asStr
  let path := (finding.pointer ["evidence", "path"]).bind Json.asStr
  let stable := object.isSome || path.isSome
  let key := jsonDigest formats (.obj [
    ("code", .str code),
    ("message_if_no_identity", if stable then .null else orNull (finding.field "message")),
    ("object", .optional object .str),
    ("path", .optional path .str)])
  return (key, stable)

/-- The keys of a document, and whether all of them are stable. -/
def lensKeys (document : Json) : Result (BTreeSet × Bool) := do
  let findings ← context ((document.field "findings").bind Json.asArr) "Lens findings missing"
  let keys ← findings.mapM (lensKey formats)
  return (.ofList (keys.map (·.1)), keys.all (·.2))

/-- An identity that says something. -/
def lensIdentity (document : Json) : Bool :=
  match document.pointer ["source", "identity"] with
  | none | some .null | some (.arr []) | some (.str "") | some (.obj []) => false
  | _ => true

/-- `compare_lens`. -/
def compareLens (old new : Json) (oldSummary newSummary : ResultSummary) : Result Delta := do
  let _ ← producerText old ["source", "kind"]
  let _ ← producerText new ["source", "kind"]
  ensure (lensIdentity old) "Lens source identity is unknown"
  let (previous, oldStable) ← lensKeys formats old
  let (current, newStable) ← lensKeys formats new
  let complete := oldSummary.complete == some true && newSummary.complete == some true &&
    oldStable && newStable
  let absent := previous.filter (!current.contains ·)
  return {
    new := current.filter (!previous.contains ·)
    unchanged := current.filter previous.contains
    resolved := if complete then absent else ∅
    carried := if complete then ∅ else absent
    complete := complete }

/-- The mode is that of the baseline's producer. -/
def compareDocuments (producer : String) (old new : Json) (oldSummary newSummary : ResultSummary) :
    Result Delta :=
  if producer == "ici" then compareIci formats old new oldSummary newSummary
  else compareLens formats old new oldSummary newSummary

/-! ## The answer to a client -/

inductive ComparisonState where
  | comparable
  | partialEvidence
  | incompatible
  | unavailable
  | unsupported
deriving DecidableEq, Repr

structure ResultComparison where
  state : ComparisonState
  baselineRunId : String
  runId : String
  reason : String
  newCount : Nat
  unchangedCount : Nat
  resolvedCount : Nat
  carriedCount : Nat
  newSample : List String
  resolvedSample : List String
deriving DecidableEq, Repr

namespace ResultComparison

/-- Nothing is compared. -/
def without (state : ComparisonState) (baselineId runId reason : String) : ResultComparison where
  state := state
  baselineRunId := baselineId
  runId := runId
  reason := reason
  newCount := 0
  unchangedCount := 0
  resolvedCount := 0
  carriedCount := 0
  newSample := []
  resolvedSample := []

/-- At most 100 identities are shown. -/
def sample (keys : BTreeSet) : List String := (keys.toList.take 100).map (safe · 256)

def ofDelta (baselineId runId : String) (delta : Delta) : ResultComparison where
  state := if delta.complete then .comparable else .partialEvidence
  baselineRunId := baselineId
  runId := runId
  reason :=
    if delta.complete then "matching producer identities and completed evidence scope"
    else "incomplete or unknown evidence: absent observations are carried, not resolved"
  newCount := delta.new.size
  unchangedCount := delta.unchanged.size
  resolvedCount := delta.resolved.size
  carriedCount := delta.carried.size
  newSample := sample delta.new
  resolvedSample := sample delta.resolved

end ResultComparison

/-- The two summaries are of one producer, schema, identity and scope. -/
def comparableSummaries (old new : ResultSummary) : Bool :=
  old.schemaId == new.schemaId && old.schemaVersion == new.schemaVersion &&
    old.producer == new.producer && old.producerVersion == new.producerVersion &&
    old.identityDigest == new.identityDigest && old.scopeDigest == new.scopeDigest

/-- `compare`; the answers are those to the two readings. -/
def compareResults (oldAnswers newAnswers : StoreAnswers) (bodies : Bodies)
    (baselineId : String) (baseline : StructuredResult) (runId : String)
    (current : StructuredResult) : ResultComparison :=
  let (oldState, old) := verified formats oldAnswers bodies baseline
  let (newState, new) := verified formats newAnswers bodies current
  match oldState.summary, newState.summary, old, new with
  | some oldSummary, some newSummary, some old, some new =>
    if !comparableSummaries oldSummary newSummary then
      .without .incompatible baselineId runId
        "producer, schema, tool/policy identity or declared scope differs"
    else
      match formats.decoder.decode old, formats.decoder.decode new with
      | .ok old, .ok new =>
        match compareDocuments formats oldSummary.producer old new oldSummary newSummary with
        | .ok delta => .ofDelta baselineId runId delta
        | .error error => .without .incompatible baselineId runId (safe error 512)
      | _, _ => .without .unavailable baselineId runId "stored document could not be decoded"
  | _, _, _, _ =>
    .without .unavailable baselineId runId
      ("results unavailable: baseline " ++ oldState.statusLabel ++ ", current " ++
        newState.statusLabel)

end Idk
