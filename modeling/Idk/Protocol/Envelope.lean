import Idk.Text

/-!
# Requests and responses between client and host

`protocol.rs`.  A request is an element of any type `ρ`, the data of a response an
element of any type `δ`: what the envelope needs to know of them is `RequestFormats`.
-/

namespace Idk

/-- `PROTOCOL`. -/
def protocolVersion : Nat := 3

/-- `MAX_REQUEST_MS`. -/
def maxRequestMs : Nat := 5000

structure Envelope (ρ : Type) where
  protocol : Nat
  requestId : String
  clientId : String
  hostInstance : Option String
  deadlineMs : Nat
  request : ρ
deriving DecidableEq, Repr

structure Response (δ : Type) where
  protocol : Nat
  requestId : String
  hostInstance : String
  data : Option δ
  error : Option String
deriving DecidableEq, Repr

/-- The requests as the envelope sees them, and the external formats: UUIDs, JSON and
    SHA-256. -/
structure RequestFormats (ρ δ φ : Type) where
  isUuid : String → Bool
  isHello : ρ → Bool
  isMutating : ρ → Bool
  validateRequest : ρ → Result Unit
  /-- `Sha256::digest(serde_json::to_vec(envelope))`. -/
  fingerprint : Envelope ρ → φ
  /-- `serde_json::to_vec(response).len()`. -/
  encodedLength : Response δ → Nat

variable {ρ δ φ : Type}

def RequestFormats.validId (formats : RequestFormats ρ δ φ) (value : String) : Result Unit :=
  ensure (formats.isUuid value) "invalid object id"

namespace Envelope

/-- What a retry repeats: the client id and the request id. -/
def key (envelope : Envelope ρ) : String × String := (envelope.clientId, envelope.requestId)

/-- What the deadline check of `validate` asks of the clock reading `now`. -/
def inDeadline (envelope : Envelope ρ) (now : Nat) : Bool :=
  now < envelope.deadlineMs && envelope.deadlineMs ≤ saturatingAdd now maxRequestMs

/-- `validate`, with its one reading of the clock. -/
def validate (formats : RequestFormats ρ δ φ) (envelope : Envelope ρ) (now : Nat) :
    Result Unit := do
  let client := envelope.protocol
  ensure (client == protocolVersion)
    s!"protocol mismatch: client {client}, host {protocolVersion}; use a compatible binary"
  formats.validId envelope.requestId
  formats.validId envelope.clientId
  ensure (envelope.inDeadline now) "request deadline expired or exceeds five seconds"
  if !formats.isHello envelope.request then
    formats.validId (← context envelope.hostInstance "request needs a host instance")
  formats.validateRequest envelope.request

end Envelope

/-- The longest prefix of `text` that encodes in at most `room` bytes. -/
def fitting (room : Nat) : List Char → List Char
  | [] => []
  | char :: rest =>
    -- the source breaks out of its loop, so nothing after the first misfit is tried
    if char.utf8Size ≤ room then char :: fitting (room - char.utf8Size) rest else []

/-- `safe_error`. -/
def safeError (error : String) : String :=
  String.ofList (fitting 512 (error.toList.filter (!isControl ·)))

namespace Response

def success (requestId : String) (data : δ) : Response δ where
  protocol := protocolVersion
  requestId := requestId
  hostInstance := ""
  data := some data
  error := none

def failure (requestId error : String) : Response δ where
  protocol := protocolVersion
  requestId := requestId
  hostInstance := ""
  data := none
  error := some (safeError error)

def withHost (response : Response δ) (name : String) : Response δ :=
  { response with hostInstance := name }

end Response

end Idk
