import Idk.Run.Operations
import Idk.Logic.Transition

/-!
# The log of a run's output

`RunOutputSink` (`run.rs`).  The reader thread of the terminal pushes what it has read,
the host ends or cuts off the collection, and a thread of its own writes the file.  Every
step below is one access to what these threads share: a call on the channel, one flag, one
`write`, or one critical section of the descriptor's mutex.
-/

namespace Idk

open Idk.Logic

/-- The capacity of the channel. -/
def sinkQueueLimit : Nat := 32

/-- The size of the blocks that `push` sends. -/
def sinkBlockSize : Nat := 8192

/-- Where the thread that calls `push` stands. -/
inductive Producer where
  | idle
  /-- The bytes are counted. -/
  | counted (bytes : List UInt8)
  /-- The sink was not stopped. -/
  | admitted (bytes : List UInt8)
  | sending (blocks : List (List UInt8))
  /-- `try_send` has failed. -/
  | refused
  /-- `limited` is stored. -/
  | limiting
deriving DecidableEq, Repr

/-- Where the thread that writes the file stands. -/
inductive Writer where
  | receiving
  /-- `recv_timeout` has run out, `finished` is not read yet. -/
  | timedOut
  | received (block : List UInt8)
  /-- In `write_all` of the first `count` bytes, of which `done` are in the file. -/
  | writing (block : List UInt8) (count done : Nat)
  /-- `write_all` has returned, the descriptor is not updated yet. -/
  | wrote (block : List UInt8) (count : Nat) (failed : Bool)
  /-- Out of the loop. -/
  | leaving
  | synced (failed : Bool)
  | ended
  /-- The receiver is dropped as well. -/
  | gone
deriving DecidableEq, Repr

/-- A loss shows in a state that would not show it. -/
def LogState.downgraded (state : LogState) (lost : Bool) (loss : LogState) : LogState :=
  if lost && (state == .recording || state == .complete) then loss else state

structure OutputSink where
  queue : List (List UInt8)
  descriptor : LogDescriptor
  /-- Whether the writer still has the file. -/
  file : Bool
  written : List UInt8
  observed : Nat
  stopped : Bool
  limited : Bool
  cut : Bool
  finished : Bool
  /-- Every handle of the sink is dropped. -/
  released : Bool
  producer : Producer
  /-- `finish` has stored `stopped` and not yet `finished`. -/
  finishing : Bool
  writer : Writer
  /-- All bytes that were ever handed to `push`. -/
  pushed : List UInt8
  /-- How many of them belong to calls of `push` that have returned. -/
  returned : Nat
  /-- `returned` when `finish` was first called. -/
  promised : Option Nat
  /-- A `write` has failed. -/
  broken : Bool
deriving DecidableEq, Repr

namespace OutputSink

/-- `with_file`: a disabled log has no file. -/
def withFile (identity : Nat × Nat) (descriptor : LogDescriptor) : OutputSink where
  queue := []
  descriptor :=
    if descriptor.state = .disabled then descriptor
    else { descriptor with fileIdentity := some identity }
  file := descriptor.state ≠ .disabled
  written := []
  observed := 0
  stopped := false
  limited := false
  cut := false
  finished := false
  released := false
  producer := .idle
  finishing := false
  writer := .receiving
  pushed := []
  returned := 0
  promised := none
  broken := false

/-- `descriptor()`. -/
def reported (sink : OutputSink) : LogDescriptor :=
  let state := sink.descriptor.state.downgraded sink.limited .limited
  { sink.descriptor with
    observedBytes := sink.observed
    state := state.downgraded sink.cut .partialLog }

/-- `slice.chunks(size)`, with `block` as the start of the next one. -/
def chunks (size : Nat) (block : List UInt8) : List UInt8 → List (List UInt8)
  | [] => if block.isEmpty then [] else [block]
  | byte :: rest =>
    if block.length + 1 = size then (block ++ [byte]) :: chunks size [] rest
    else chunks size (block ++ [byte]) rest

/-- The call of `push` returns. -/
def returns (sink : OutputSink) : OutputSink :=
  { sink with producer := .idle, returned := sink.pushed.length }

end OutputSink

/-! ## The steps -/

inductive SinkStep where
  /- `push` -/
  | push (bytes : List UInt8)
  | checkStopped
  | checkDisabled
  | trySend
  | storeLimited
  | storeStopped
  /- `finish` and `mark_partial` -/
  | stop
  | finish
  | markPartial
  | release
  /- the writer -/
  | receive
  | timeout
  | disconnect
  | readFinished
  | lock
  | write (count : Nat)
  | writeDone
  | writeFailed
  | record
  | sync (failed : Bool)
  | settle
  | exit
deriving DecidableEq, Repr

namespace OutputSink

/-- The steps of a thread that pushes. -/
def produce (sink : OutputSink) : SinkStep → Option OutputSink
  | .push bytes =>
    if sink.producer = .idle ∧ !sink.released then
      some { sink with
        observed := sink.observed + bytes.length
        pushed := sink.pushed ++ bytes
        producer := .counted bytes }
    else none
  | .checkStopped =>
    match sink.producer with
    | .counted bytes =>
      some (if sink.stopped then sink.returns else { sink with producer := .admitted bytes })
    | _ => none
  | .checkDisabled =>
    match sink.producer with
    | .admitted bytes =>
      some (if sink.reported.state = .disabled then sink.returns
        else { sink with producer := .sending (chunks sinkBlockSize [] bytes) })
    | _ => none
  | .trySend =>
    match sink.producer with
    | .sending [] => some sink.returns
    | .sending (block :: rest) =>
      if sink.writer = .gone ∨ sinkQueueLimit ≤ sink.queue.length then
        some { sink with producer := .refused }
      else some { sink with queue := sink.queue ++ [block], producer := .sending rest }
    | _ => none
  | .storeLimited =>
    if sink.producer = .refused then some { sink with limited := true, producer := .limiting }
    else none
  | .storeStopped =>
    if sink.producer = .limiting then some { sink with stopped := true }.returns else none
  | _ => none

/-- The steps of the threads that end the collection. -/
def conclude (sink : OutputSink) : SinkStep → Option OutputSink
  | .stop =>
    if !sink.finishing ∧ !sink.released then
      some { sink with
        stopped := true
        finishing := true
        promised := some (sink.promised.getD sink.returned) }
    else none
  | .finish =>
    if sink.finishing then some { sink with finished := true, finishing := false } else none
  | .markPartial => if !sink.released then some { sink with cut := true } else none
  | .release =>
    if sink.producer = .idle ∧ !sink.finishing then some { sink with released := true } else none
  | _ => none

/-- The steps of the thread that writes. -/
def consume (sink : OutputSink) : SinkStep → Option OutputSink
  | .receive =>
    match sink.writer, sink.queue with
    | .receiving, block :: rest => some { sink with queue := rest, writer := .received block }
    | _, _ => none
  | .timeout =>
    if sink.writer = .receiving ∧ sink.queue = [] then some { sink with writer := .timedOut }
    else none
  | .disconnect =>
    if sink.writer = .receiving ∧ sink.queue = [] ∧ sink.released then
      some { sink with writer := .leaving }
    else none
  | .readFinished =>
    if sink.writer = .timedOut then
      some { sink with writer := if sink.finished then .leaving else .receiving }
    else none
  | .lock =>
    match sink.writer with
    | .received block =>
      let count := min (sink.descriptor.limitBytes - sink.descriptor.bytes) block.length
      if sink.descriptor.state = .recording ∨ sink.descriptor.state = .limited then
        some { sink with
          writer := if sink.file then .writing block count 0 else .wrote block count false }
      else some { sink with writer := .receiving }
    | _ => none
  | .write more =>
    match sink.writer with
    | .writing block count done =>
      if 0 < more ∧ done + more ≤ count then
        some { sink with
          written := sink.written ++ (block.drop done).take more
          writer := .writing block count (done + more) }
      else none
    | _ => none
  | .writeDone =>
    match sink.writer with
    | .writing block count done =>
      if done = count then some { sink with writer := .wrote block count false } else none
    | _ => none
  | .writeFailed =>
    match sink.writer with
    | .writing block count done =>
      if done < count then
        some { sink with writer := .wrote block count true, broken := true }
      else none
    | _ => none
  | .record =>
    match sink.writer with
    | .wrote _ _ true =>
      some { sink with descriptor.state := .writeFailed, file := false, writer := .receiving }
    | .wrote block count false =>
      some { sink with
        descriptor.bytes := sink.descriptor.bytes + count
        descriptor.state := if count < block.length then .limited else sink.descriptor.state
        writer := .receiving }
    | _ => none
  | .sync failed =>
    if sink.writer = .leaving then some { sink with writer := .synced (sink.file && failed) }
    else none
  | .settle =>
    match sink.writer with
    | .synced failed =>
      some { sink with
        descriptor.state :=
          if failed then .writeFailed
          else if sink.descriptor.state = .recording then .complete
          else sink.descriptor.state
        writer := .ended }
    | _ => none
  | .exit => if sink.writer = .ended then some { sink with writer := .gone } else none
  | _ => none

/-- Whatever thread the step belongs to. -/
def next (sink : OutputSink) (step : SinkStep) : Option OutputSink :=
  (sink.produce step).or ((sink.conclude step).or (sink.consume step))

end OutputSink

/-- The sinks that `begin_commit` opens, with every order of their threads' steps. -/
def sinkSystem : System OutputSink SinkStep where
  init sink := ∃ ticket identity, sink = .withFile identity (initialLog ticket)
  step first label last := first.next label = some last

end Idk
