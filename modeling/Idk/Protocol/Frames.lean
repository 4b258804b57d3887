import Idk.Base

/-!
# Frames on a byte stream

`read_frame`, `write_frame` and their variants with a deadline (`protocol.rs`).  What the calls
of the operating system come to is a list of turns, one for each pass of a loop; where the turns
end a call still waits and there is no result.
-/

namespace Idk.Protocol

/-- `MAX_MESSAGE`. -/
def maxMessage : Nat := 4 * 1024 * 1024

/-- What happens in one pass of a loop that reads or writes. -/
inductive Turn where
  /-- The clock is past the deadline; only a loop with a deadline looks at it. -/
  | expired
  /-- `ErrorKind::Interrupted`. -/
  | interrupted
  | failed (error : String)
  /-- `Ok(0)`: the peer is gone. -/
  | closed
  /-- At most `more + 1` bytes are transferred. -/
  | moves (more : Nat)
  deriving DecidableEq, Repr

/-- The bytes on their way, and what the next passes meet. -/
structure Link where
  bytes : List UInt8
  turns : List Turn
  deriving DecidableEq, Repr

/-- An operation on the stream, which fails or still waits. -/
abbrev Transport := StateT Link (ExceptT String Option)

instance : MonadLift Result Transport :=
  ⟨fun result link => ExceptT.mk (some (result.map fun value => (value, link)))⟩

/-- What `read_exact`, `write_all`, `read_until` and `write_until` differ in. -/
structure Loop where
  deadline : Bool
  closed : String
  failed : String → String

/-- The loop that fills a buffer: `wanted` bytes are missing behind `got`. -/
def readLoop (loop : Loop) : List Turn → List UInt8 → Nat → List UInt8 →
    Option (Result (List UInt8 × Link))
  | turns, bytes, 0, got => some (.ok (got, { bytes, turns }))
  | [], _, _ + 1, _ => none
  | turn :: turns, bytes, wanted + 1, got =>
    match turn with
    | .expired =>
      if loop.deadline then some (.error "IPC absolute deadline exceeded")
      else readLoop loop turns bytes (wanted + 1) got
    | .interrupted => readLoop loop turns bytes (wanted + 1) got
    | .failed error => some (.error (loop.failed error))
    | .closed => some (.error loop.closed)
    | .moves more =>
      let count := min (min (more + 1) (wanted + 1)) bytes.length
      if count = 0 then some (.error loop.closed)
      else readLoop loop turns (bytes.drop count) (wanted + 1 - count) (got ++ bytes.take count)

/-- The loop that sends what is left of a buffer. -/
def writeLoop (loop : Loop) : List Turn → List UInt8 → List UInt8 → Option (Result (Unit × Link))
  | turns, bytes, [] => some (.ok ((), { bytes, turns }))
  | [], _, _ :: _ => none
  | turn :: turns, bytes, byte :: rest =>
    match turn with
    | .expired =>
      if loop.deadline then some (.error "IPC absolute deadline exceeded")
      else writeLoop loop turns bytes (byte :: rest)
    | .interrupted => writeLoop loop turns bytes (byte :: rest)
    | .failed error => some (.error (loop.failed error))
    | .closed => some (.error loop.closed)
    | .moves more =>
      writeLoop loop turns (bytes ++ (byte :: rest).take (more + 1)) ((byte :: rest).drop (more + 1))

/-- `read_frame` or `read_frame_deadline`. -/
inductive Reader where
  | frame
  | deadline
  deriving DecidableEq, Repr

/-- `write_frame`, with the answer of its `flush`, or `write_frame_deadline`. -/
inductive Writer where
  | frame (flush : Result Unit)
  | deadline
  deriving Repr

/-- `read_exact` or `read_until`. -/
def Reader.loop : Reader → Loop
  | .frame => { deadline := false, closed := "failed to fill whole buffer", failed := id }
  | .deadline => {
      deadline := true
      closed := "IPC peer disconnected before the frame completed"
      failed := fun _ => "read IPC frame before deadline" }

/-- `write_all` or `write_until`. -/
def Writer.loop : Writer → Loop
  | .frame _ => { deadline := false, closed := "failed to write whole buffer", failed := id }
  | .deadline => {
      deadline := true
      closed := "IPC peer stopped reading"
      failed := fun _ => "write IPC frame before deadline" }

def Writer.flush : Writer → Result Unit
  | .frame flush => flush
  | .deadline => .ok ()

def Reader.fill (reader : Reader) (size : Nat) : Transport (List UInt8) := fun link =>
  ExceptT.mk (readLoop reader.loop link.turns link.bytes size [])

def Writer.send (writer : Writer) (bytes : List UInt8) : Transport Unit := fun link =>
  ExceptT.mk (writeLoop writer.loop link.turns link.bytes bytes)

/-- `u32::to_be_bytes`. -/
def toBeBytes (value : Nat) : List UInt8 :=
  [.ofNat (value / 2 ^ 24), .ofNat (value / 2 ^ 16), .ofNat (value / 2 ^ 8), .ofNat value]

/-- `u32::from_be_bytes`. -/
def fromBeBytes (bytes : List UInt8) : Nat :=
  bytes.foldl (fun value byte => value * 2 ^ 8 + byte.toNat) 0

/-- `frame_size`. -/
def frameSize (header : List UInt8) : Result Nat :=
  let size := fromBeBytes header
  if 0 < size ∧ size ≤ maxMessage then .ok size
  else .error "IPC message exceeds allowed size"

/-- `serde_json::to_vec` and `serde_json::from_slice`. -/
structure Json (α : Type) where
  encode : α → Result (List UInt8)
  decode : List UInt8 → Result α

variable {α : Type}

/-- `read_frame`, `read_frame_deadline`. -/
def readFrame (json : Json α) (reader : Reader) : Transport α := do
  let header ← reader.fill 4
  let size ← liftM (frameSize header)
  let body ← reader.fill size
  liftM ((json.decode body).mapError fun _ => "invalid IPC message")

/-- `write_frame`, `write_frame_deadline`. -/
def writeFrame (json : Json α) (writer : Writer) (value : α) : Transport Unit := do
  let bytes ← liftM (json.encode value)
  liftM (ensure (bytes.length ≤ maxMessage)
    "IPC response exceeds allowed size; reduce terminal dimensions")
  writer.send (toBeBytes (bytes.length % 2 ^ 32))
  writer.send bytes
  liftM writer.flush

/-- Messages written one after another. -/
def writeMany (json : Json α) : List (Writer × α) → Transport Unit
  | [] => pure ()
  | (writer, value) :: rest => do
    writeFrame json writer value
    writeMany json rest

/-- Messages read one after another, until a reader fails or waits. -/
def readMany (json : Json α) : List Reader → Link → List α
  | [], _ => []
  | reader :: rest, link =>
    match ((readFrame json reader).run link).run with
    | some (.ok (value, link)) => value :: readMany json rest link
    | _ => []

end Idk.Protocol
