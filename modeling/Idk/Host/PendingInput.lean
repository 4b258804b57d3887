import Idk.Base
import Idk.Logic.Transition

/-!
# The input queue of a terminal

`queue`, the replies of `events` and `flush` (`terminal.rs`): what waits to be written to
the PTY.  A chunk may be written in parts; `pending_offset` is what is gone of the first.
-/

namespace Idk.Terminal

open Idk.Logic

/-- `MAX_PENDING_INPUT`. -/
def maxPendingInput : Nat := 1024 * 1024

/-- `MAX_PENDING_REPLIES`. -/
def maxPendingReplies : Nat := 64 * 1024

/-- `IO_CHUNK`. -/
def ioChunk : Nat := 8192

/-- What `write` answers. -/
inductive WriteAnswer where
  | wrote (count : Nat)
  | wouldBlock
  | interrupted
  | failed (error : String)

/-- The fields of `Engine` that input goes through. -/
structure PendingInput where
  pending : List (List UInt8)
  pendingOffset : Nat
  pendingBytes : Nat
  error : Option String
  outputLimited : Bool

namespace PendingInput

def new : PendingInput where
  pending := []
  pendingOffset := 0
  pendingBytes := 0
  error := none
  outputLimited := false

/-- `queue`. -/
def queue (input : PendingInput) (bytes : List UInt8) : Result PendingInput := do
  ensure (saturatingAdd input.pendingBytes bytes.length ≤ maxPendingInput)
    "terminal input queue is full; retry after pending input drains"
  if bytes.isEmpty then
    return input
  return { input with
    pending := input.pending ++ [bytes]
    pendingBytes := input.pendingBytes + bytes.length }

/-- What `events` does with the reply of one event. -/
def reply (input : PendingInput) (text : List UInt8) : PendingInput :=
  if maxPendingReplies < saturatingAdd input.pendingBytes text.length then
    { input with outputLimited := true }
  else
    match input.queue text with
    | .ok queued => queued
    | .error _ => { input with outputLimited := true }

/-- The part of the first chunk that one write is given. -/
def offered (input : PendingInput) : List UInt8 :=
  match input.pending with
  | [] => []
  | front :: _ =>
    (front.take (min front.length (input.pendingOffset + ioChunk))).drop input.pendingOffset

/-- `flush`. -/
def flush (input : PendingInput) (answer : WriteAnswer) : PendingInput :=
  match input.pending with
  | [] => input
  | front :: rest =>
    match answer with
    | .wrote 0 => { input with error := some "PTY input closed before queued input drained" }
    | .wrote count =>
      let written := { input with
        pendingOffset := input.pendingOffset + count
        pendingBytes := input.pendingBytes - count }
      if written.pendingOffset = front.length then
        { written with pending := rest, pendingOffset := 0 }
      else written
    | .wouldBlock | .interrupted => input
    | .failed error =>
      { input with
        error := some ("PTY write failed: " ++ error)
        pending := []
        pendingBytes := 0
        pendingOffset := 0 }

end PendingInput

/-! ## Traffic through the queue -/

inductive Source where
  | user
  | reply
deriving DecidableEq

inductive InputEvent where
  | input (bytes : List UInt8)
  | replied (text : List UInt8)
  | flushed (answer : WriteAnswer)

/-- The queue with what has gone in and out of it; `sources` says of every pending byte where
    it comes from, `lost` that a write has failed. -/
structure Traffic where
  queue : PendingInput
  accepted : List UInt8
  delivered : List UInt8
  sources : List Source
  lost : Bool

namespace Traffic

def new : Traffic := ⟨.new, [], [], [], false⟩

/-- Bytes that are in the queue now. -/
def entered (traffic : Traffic) (source : Source) (bytes : List UInt8) (queue : PendingInput) :
    Traffic :=
  { traffic with
    queue := queue
    accepted := traffic.accepted ++ bytes
    sources := traffic.sources ++ List.replicate bytes.length source }

def after (traffic : Traffic) : InputEvent → Traffic
  | .input bytes =>
    match traffic.queue.queue bytes with
    | .ok queue => traffic.entered .user bytes queue
    | .error _ => traffic
  | .replied text =>
    let queue := traffic.queue.reply text
    -- a reply that is dropped leaves the counter as it was
    if queue.pendingBytes = traffic.queue.pendingBytes then { traffic with queue := queue }
    else traffic.entered .reply text queue
  | .flushed answer =>
    let queue := traffic.queue.flush answer
    match answer with
    | .wrote count =>
      { traffic with
        queue := queue
        delivered := traffic.delivered ++ traffic.queue.offered.take count
        sources := traffic.sources.drop count }
    | .wouldBlock | .interrupted => { traffic with queue := queue }
    | .failed _ =>
      -- with nothing to write there is no write that fails
      if traffic.queue.pending.isEmpty then traffic
      else { traffic with queue := queue, sources := [], lost := true }

end Traffic

/-- `write` takes no more than it is given. -/
def InputEvent.Possible (traffic : Traffic) : InputEvent → Prop
  | .flushed (.wrote count) => count ≤ traffic.queue.offered.length
  | _ => True

def inputSystem : System Traffic InputEvent where
  init traffic := traffic = .new
  step traffic event next := event.Possible traffic ∧ next = traffic.after event

end Idk.Terminal
