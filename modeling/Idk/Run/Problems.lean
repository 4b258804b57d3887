import Idk.Run.Registry

/-!
# Diagnostics from a run's log

`ProblemParser` (`problems.rs`).  What the compilers' patterns make of a complete line is a
`Grammar`: its state is what the parser has found so far.
-/

namespace Idk

/-- `MAX_LINE`. -/
def maxLine : Nat := 16 * 1024

/-! ## Control sequences -/

inductive Escape where
  | plain
  | start
  | intermediate
  | csi
  | osc
  | oscTerminator
  | string
  | stringTerminator
deriving DecidableEq, Repr

structure Controls where
  state : Escape
  removed : Bool
deriving DecidableEq, Repr

namespace Controls

def toState (state : Escape) (controls : Controls) : Controls := { controls with state := state }

/-- `consume`: the byte that is kept, if any. -/
def consume (controls : Controls) (byte : UInt8) : Controls × Option UInt8 :=
  match controls.state with
  | .plain =>
    if byte = 0x1b then ({ state := .start, removed := true }, none)
    else if byte = 13 then (controls, some 10)
    else if byte = 10 ∨ byte = 9 ∨ (0x20 ≤ byte ∧ byte ≤ 0x7e) ∨ 0x80 ≤ byte then
      (controls, some byte)
    else ({ controls with removed := true }, none)
  | .start =>
    let state : Escape :=
      if byte = 91 then .csi
      else if byte = 93 then .osc
      else if byte = 80 ∨ byte = 88 ∨ byte = 94 ∨ byte = 95 then .string
      else if 0x20 ≤ byte ∧ byte ≤ 0x2f then .intermediate
      else if byte = 0x1b then .start
      else .plain
    (controls.toState state, none)
  | .intermediate =>
    (if 0x30 ≤ byte ∧ byte ≤ 0x7e then controls.toState .plain else controls, none)
  | .csi =>
    (if 0x40 ≤ byte ∧ byte ≤ 0x7e then controls.toState .plain
      else if byte = 0x1b then controls.toState .start
      else controls, none)
  | .osc =>
    (if byte = 7 then controls.toState .plain
      else if byte = 0x1b then controls.toState .oscTerminator
      else controls, none)
  | .oscTerminator =>
    (controls.toState
      (if byte = 92 then .plain else if byte = 0x1b then .oscTerminator else .osc), none)
  | .string =>
    (if byte = 0x1b then controls.toState .stringTerminator else controls, none)
  | .stringTerminator =>
    (controls.toState
      (if byte = 92 then .plain else if byte = 0x1b then .stringTerminator else .string), none)

end Controls

/-- `forbidden_character`. -/
def forbiddenCharacter (char : Char) : Bool :=
  (isControl char && char != '\n' && char != '\t') ||
    (0x202a ≤ char.toNat && char.toNat ≤ 0x202e) || (0x2066 ≤ char.toNat && char.toNat ≤ 0x2069)

/-- The loop of `safe_utf8`: it ends at the first character that does not fit. -/
def safeChars (room : Nat) : List Char → List Char
  | [] => []
  | char :: rest =>
    if forbiddenCharacter char then safeChars room rest
    else if char.utf8Size ≤ room then char :: safeChars (room - char.utf8Size) rest
    else []

/-- `safe_utf8` of a valid text. -/
def safeUtf8 (text : String) (maximum : Nat) : String :=
  String.ofList (safeChars maximum text.toList)

/-! ## The parser -/

/-- `parse_line`, at the line's offset, says whether a limit was met; `discard` forgets what
    only the next line could complete. -/
structure Grammar (δ : Type) where
  empty : δ
  parseLine : Nat → String → δ → δ × Bool
  discard : δ → δ

/-- `problems` are kept in the state of the grammar. -/
structure ProblemSet (δ : Type) where
  runId : String
  projectId : String
  definitionRevision : Nat
  sourceGeneration : Option Nat
  sourceChanged : Option Bool
  logGeneration : Nat
  parsedBytes : Nat
  problems : δ
  limited : Bool
  incomplete : Bool
  controlSequencesRemoved : Bool

structure ProblemParser (δ : Type) where
  result : ProblemSet δ
  line : List UInt8
  lineOffset : Nat
  nextOffset : Nat
  lineLimited : Bool
  lineAmbiguous : Bool
  controls : Controls

/-- What `read_log` returns, with the bytes that `data_base64` encodes. -/
structure LogChunk where
  descriptor : LogDescriptor
  offset : Nat
  nextOffset : Nat
  data : List UInt8
  eof : Bool
deriving DecidableEq, Repr

/-- The length of the padded base64 text of `count` bytes. -/
def base64Length (count : Nat) : Nat := 4 * ((count + 2) / 3)

variable {δ : Type} (grammar : Grammar δ)

namespace ProblemParser

def new (run : RunInfo) : ProblemParser δ where
  result :=
    { runId := run.runId
      projectId := run.projectId
      definitionRevision := run.definitionRevision
      sourceGeneration := run.sourceStart.generation
      sourceChanged := run.sourceChanged
      logGeneration := run.log.generation
      parsedBytes := 0
      problems := grammar.empty
      limited := false
      incomplete := false
      controlSequencesRemoved := false }
  line := []
  lineOffset := 0
  nextOffset := 0
  lineLimited := false
  lineAmbiguous := false
  controls := { state := .plain, removed := false }

/-- A line that cannot name what it was about. -/
def unreadable (parser : ProblemParser δ) : ProblemParser δ :=
  { parser with
    result.incomplete := true
    result.problems := grammar.discard parser.result.problems
    lineLimited := false
    lineAmbiguous := false }

/-- `parse_line` of the text of a line. -/
def parsed (parser : ProblemParser δ) (text : String) : ProblemParser δ :=
  let (problems, limited) := grammar.parseLine parser.lineOffset (safeUtf8 text maxLine)
    parser.result.problems
  { parser with
    result.problems := problems
    result.limited := parser.result.limited || limited
    lineLimited := false }

def completeLine (parser : ProblemParser δ) : ProblemParser δ :=
  let taken := { parser with line := [] }
  match String.fromUTF8? ⟨parser.line.toArray⟩ with
  | none => taken.unreadable grammar
  | some text =>
    if text.toList.any forbiddenCharacter then
      ({ taken with controls.removed := true } : ProblemParser δ).unreadable grammar
    else if parser.lineLimited || parser.lineAmbiguous then taken.unreadable grammar
    else taken.parsed grammar text

/-- A control character in the text itself makes the line ambiguous. -/
def marked (parser : ProblemParser δ) (byte : UInt8) : ProblemParser δ :=
  if parser.controls.state = .plain ∧ (byte < 0x20 ∨ byte = 0x7f) ∧
      byte ≠ 10 ∧ byte ≠ 13 ∧ byte ≠ 9 ∧ byte ≠ 0x1b then
    { parser with lineAmbiguous := true }
  else parser

/-- What becomes of the byte that is kept; `ending` is the offset after it. -/
def keep (parser : ProblemParser δ) (ending : Nat) : Option UInt8 → ProblemParser δ
  | none => parser
  | some byte =>
    if byte = 10 then { parser.completeLine grammar with lineOffset := ending }
    else if parser.line.length < maxLine then { parser with line := parser.line ++ [byte] }
    else { parser with lineLimited := true, result.limited := true }

/-- One round of the loop of `push`. -/
def feedByte (parser : ProblemParser δ) (ending : Nat) (byte : UInt8) : ProblemParser δ :=
  let parser := parser.marked byte
  let (controls, kept) := parser.controls.consume byte
  ({ parser with controls := controls } : ProblemParser δ).keep grammar ending kept

/-- The loop of `push`, from `offset` on. -/
def feed (parser : ProblemParser δ) (offset : Nat) : List UInt8 → ProblemParser δ
  | [] => parser
  | byte :: rest => (parser.feedByte grammar (offset + 1) byte).feed (offset + 1) rest

/-- The parser stands after `offset` bytes. -/
def moved (parser : ProblemParser δ) (offset : Nat) : ProblemParser δ :=
  { parser with nextOffset := offset, result.parsedBytes := offset }

def push (parser : ProblemParser δ) (chunk : LogChunk) : Result (ProblemParser δ) := do
  ensure (chunk.descriptor.runId == parser.result.runId &&
      chunk.descriptor.generation == parser.result.logGeneration)
    "log belongs to another run or generation; start a new diagnostic parser"
  ensure (chunk.offset == parser.nextOffset)
    "log has a gap or repeated chunk; diagnostics were not combined"
  ensure (base64Length chunk.data.length ≤ 128 * 1024) "diagnostic input chunk exceeds bound"
  ensure (chunk.offset + chunk.data.length < 2 ^ 64 &&
      chunk.offset + chunk.data.length == chunk.nextOffset &&
      chunk.nextOffset ≤ chunk.descriptor.bytes)
    "invalid raw log position"
  return (parser.feed grammar chunk.offset chunk.data).moved chunk.nextOffset

def finish (parser : ProblemParser δ) (descriptor : LogDescriptor) : Result (ProblemSet δ) := do
  ensure (descriptor.runId == parser.result.runId &&
      descriptor.generation == parser.result.logGeneration)
    "log changed while diagnostics were collected"
  let parser := parser.completeLine grammar
  return { parser.result with
    incomplete := parser.result.incomplete || parser.nextOffset < descriptor.bytes ||
      parser.controls.state ≠ .plain ||
      [LogState.disabled, .recording, .writeFailed, .expired, .partialLog].contains
        descriptor.state
    limited := parser.result.limited || descriptor.state == .limited ||
      descriptor.bytes < descriptor.observedBytes
    controlSequencesRemoved := parser.controls.removed }

end ProblemParser

end Idk
