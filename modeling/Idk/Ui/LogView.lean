import Idk.Logic.Utf8
import Idk.Run.Problems

/-!
# The log of a run on the screen

`LogView` (`ui/run_log.rs`), with the `safe_utf8` and the control sequences of `problems.rs`.
-/

namespace Idk

/-- The loop over the bytes of a chunk: `filter_map(|byte| self.controls.consume(byte))`. -/
def Controls.strip : Controls → List UInt8 → Controls × List UInt8
  | controls, [] => (controls, [])
  | controls, byte :: rest =>
    let (next, kept) := controls.consume byte
    let (last, others) := next.strip rest
    (last, kept.toList ++ others)

/-- `safe_utf8` of bytes that may be broken. -/
def safeUtf8Lossy (bytes : List UInt8) (maximum : Nat) : String :=
  String.ofList (safeChars maximum (Logic.Utf8.lossy bytes))

end Idk

namespace Idk.Ui

open Idk.Logic.Utf8

/-- How many bytes are kept, and how many are shown. -/
def displayLimit : Nat := 262144

structure LogView where
  runId : String
  generation : Nat
  next : Nat
  limited : Bool
  eof : Bool
  bytes : List UInt8
  controls : Controls
  deriving DecidableEq

/-- The bytes that stay when the others are drained, from a character's begin on. -/
def drained (bytes : List UInt8) : List UInt8 :=
  if displayLimit < bytes.length then
    (bytes.drop (bytes.length - displayLimit)).dropWhile continues
  else bytes

/-- The loop of `text` that goes back to where the last character may begin. -/
def tailStart (bytes : List UInt8) : Nat → Nat
  | 0 => 0
  | start + 1 =>
    if (bytes[start + 1]?.any continues) = true ∧ bytes.length - (start + 1) < 4 then
      tailStart bytes start
    else start + 1

/-- The end of what `text` shows: a character that is not complete is left out. -/
def textEnd (bytes : List UInt8) : Nat :=
  let start := tailStart bytes (bytes.length - 1)
  match cutAt (bytes.drop start) with
  | some validUpTo => start + validUpTo
  | none => bytes.length

namespace LogView

def new (runId : String) (generation offset : Nat) : LogView where
  runId := runId
  generation := generation
  next := offset
  limited := false
  eof := false
  bytes := []
  controls := { state := .plain, removed := false }

/-- What `push` requires of a chunk. -/
def accepts (view : LogView) (chunk : LogChunk) : Result Unit := do
  ensure (view.runId == chunk.descriptor.runId && view.generation == chunk.descriptor.generation)
    "Log generation changed; refresh the Run before reading again"
  ensure (view.next == chunk.offset) "Log byte position changed; stale chunk discarded"
  ensure (chunk.nextOffset == chunk.offset + chunk.data.length) "Invalid raw log offset"

/-- The view after a chunk that is accepted. -/
def extended (view : LogView) (chunk : LogChunk) : LogView :=
  let (controls, plain) := view.controls.strip chunk.data
  let bytes := view.bytes ++ plain
  { view with
    bytes := drained bytes
    controls := controls
    limited := view.limited || displayLimit < bytes.length
    next := chunk.nextOffset
    eof := chunk.eof }

/-- `push`, with the view that it leaves. -/
def push (view : LogView) (chunk : LogChunk) : Result Unit × LogView :=
  match view.accepts chunk with
  | .error error => (.error error, view)
  | .ok () => (.ok (), view.extended chunk)

def text (view : LogView) : String :=
  safeUtf8Lossy (view.bytes.take (textEnd view.bytes)) displayLimit

end LogView

end Idk.Ui
