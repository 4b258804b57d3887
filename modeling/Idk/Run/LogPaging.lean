import Idk.Run.OutputSink
import Idk.Run.Problems

/-!
# Reading a log while it is written

`read_log` (`run.rs`) and `problems` (`host/run_jobs.rs`) on the run of a live writer.  A
reader looks at the log three times, and the writer may be anywhere in between: `info` takes
the sink's descriptor and then the length of the file, `read_log` takes the length again, and
only then the bytes.
-/

namespace Idk

open Idk.Logic

/-- `CHUNK_LIMIT`. -/
def chunkLimit : Nat := 64 * 1024

structure LogRequest where
  generation : Nat
  offset : Nat
  limit : Nat
deriving DecidableEq, Repr

/-- `read_log`, until it opens the file. -/
def RunRegistry.logDescriptor (answers : Answers) (registry : RunRegistry) (runId : String)
    (request : LogRequest) : Result LogDescriptor := do
  let run ← registry.info answers runId
  ensure (request.generation == run.log.generation)
    "log generation changed; reload descriptor"
  ensure (0 < request.limit && request.limit ≤ chunkLimit) "log read limit must be 1–65536"
  return run.log

/-- The file is opened and has this length. -/
def LogDescriptor.measured (descriptor : LogDescriptor) (request : LogRequest)
    (metadata : LogMetadata) : Result LogDescriptor := do
  ensure (descriptor.fileIdentity == some metadata.identity)
    "log file replaced; reload descriptor"
  let descriptor := { descriptor with
    state := if metadata.length < descriptor.bytes then .partialLog else descriptor.state
    bytes := min metadata.length logByteLimit }
  ensure (request.offset ≤ descriptor.bytes) "log position no longer available"
  return descriptor

/-- The reply of `read_log`. -/
def LogDescriptor.chunk (descriptor : LogDescriptor) (request : LogRequest)
    (data : List UInt8) : LogChunk where
  descriptor := descriptor
  offset := request.offset
  nextOffset := request.offset + data.length
  data := data
  eof := descriptor.bytes ≤ request.offset + data.length

/-- What `info` is called for: at the start of `problems`, by `read_log` (for `problems` or
    for another reader), and at the end of `problems`. -/
inductive LogUse where
  | opening
  | reading (request : LogRequest) (collecting : Bool)
  | closing
deriving DecidableEq, Repr

/-- Where the reader stands. -/
inductive LogCall where
  | idle
  /-- `info` has the sink's descriptor. -/
  | described (use : LogUse) (log : LogDescriptor)
  /-- `info` has returned. -/
  | asked (request : LogRequest) (collecting : Bool) (descriptor : LogDescriptor)
  /-- The length of the file is taken. -/
  | measured (request : LogRequest) (collecting : Bool) (descriptor : LogDescriptor)
deriving DecidableEq, Repr

/-- The loop of `problems`. -/
inductive Collector (δ : Type) where
  | idle
  | running (generation : Nat) (parser : ProblemParser δ) (eof : Bool)
  | ended (result : Result (ProblemSet δ))

structure Paging (δ : Type) where
  sink : OutputSink
  call : LogCall
  collector : Collector δ
  /-- All chunks that `read_log` has returned, newest first. -/
  chunks : List LogChunk

inductive PagingStep where
  | output (step : SinkStep)
  | collect
  | cancel
  | request (request : LogRequest)
  | inspect
  | measure
  | read
deriving DecidableEq, Repr

variable {δ : Type} (grammar : Grammar δ) (registry : RunRegistry) (base : Answers)
  (runId : String)

namespace Paging

/-- The file, as `log_file` finds it now. -/
def file (paging : Paging δ) : Result (Result LogMetadata) :=
  match paging.sink.descriptor.fileIdentity with
  | some identity => .ok (.ok { identity := identity, length := paging.sink.written.length })
  | none => .error "no log file"

/-- The environment of `info` with an earlier descriptor of the sink. -/
def answers (paging : Paging δ) (log : LogDescriptor) : Answers :=
  { base with
    sink := fun _ => log
    logFile := fun _ => paging.file }

/-- `read_log` returns; the loop of `problems` gives the chunk to the parser. -/
def reply (paging : Paging δ) (collecting : Bool) (result : Result LogChunk) : Paging δ where
  sink := paging.sink
  call := .idle
  chunks := result.toOption.toList ++ paging.chunks
  collector :=
    match collecting, paging.collector with
    | true, .running generation parser _ =>
      match result, result.bind (parser.push grammar) with
      | .ok chunk, .ok parser => .running generation parser chunk.eof
      | _, .error error | .error error, _ => .ended (.error error)
    | _, collector => collector

/-- `info` returns. -/
def informed (paging : Paging δ) (use : LogUse) (log : LogDescriptor) : Paging δ :=
  let answers := paging.answers base log
  match use with
  | .opening =>
    { paging with
      call := .idle
      collector :=
        match registry.info answers runId with
        | .ok run => .running run.log.generation (.new grammar run) false
        | .error error => .ended (.error error) }
  | .closing =>
    match paging.collector with
    | .running _ parser _ =>
      { paging with
        call := .idle
        collector :=
          .ended ((registry.info answers runId).bind fun run => parser.finish grammar run.log) }
    | _ => { paging with call := .idle }
  | .reading request collecting =>
    match registry.logDescriptor answers runId request with
    | .error error => paging.reply grammar collecting (.error error)
    | .ok descriptor =>
      if descriptor.state = .disabled ∨ descriptor.state = .expired then
        paging.reply grammar collecting (.ok (descriptor.chunk request []))
      else { paging with call := .asked request collecting descriptor }

/-- What the loop of `problems` calls next. -/
def nextUse (paging : Paging δ) : Option LogUse :=
  match paging.collector with
  | .idle => some .opening
  | .running generation parser false =>
    some (.reading
      { generation := generation, offset := parser.nextOffset, limit := chunkLimit } true)
  | .running _ _ true => some .closing
  | .ended _ => none

def next (paging : Paging δ) : PagingStep → Option (Paging δ)
  | .output step => (paging.sink.next step).map ({ paging with sink := · })
  | .collect =>
    if paging.call = .idle then
      paging.nextUse.map fun use =>
        { paging with call := .described use paging.sink.reported }
    else none
  | .cancel =>
    match paging.call, paging.collector with
    | .idle, .running _ _ _ =>
      some { paging with collector := .ended (.error "Problems collection cancelled") }
    | _, _ => none
  | .request request =>
    if paging.call = .idle then
      some { paging with call := .described (.reading request false) paging.sink.reported }
    else none
  | .inspect =>
    match paging.call with
    | .described use log => some (paging.informed grammar registry base runId use log)
    | _ => none
  | .measure =>
    match paging.call with
    | .asked request collecting descriptor =>
      some (match paging.file with
        | .ok metadata =>
          match metadata.bind (descriptor.measured request) with
          | .ok descriptor => { paging with call := .measured request collecting descriptor }
          | .error error => paging.reply grammar collecting (.error error)
        -- There is no file any more.
        | .error _ => paging.reply grammar collecting
            (.ok (({ descriptor with state := .expired } : LogDescriptor).chunk request [])))
    | _ => none
  | .read =>
    match paging.call with
    | .measured request collecting descriptor =>
      let data := (paging.sink.written.drop request.offset).take request.limit
      some (paging.reply grammar collecting (.ok (descriptor.chunk request data)))
    | _ => none

end Paging

end Idk
