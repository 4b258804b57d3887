import Idk.Run.Problems

/-!
# The diagnostics of a line

`parse_line` and `add` of `ProblemParser` (`problems.rs`).  The regular expressions are taken
by what they capture of a line.
-/

namespace Idk

/-- `MAX_PROBLEMS`. -/
def maxProblems : Nat := 256

/-- `MAX_RETAINED_TEXT`. -/
def maxRetainedText : Nat := 512 * 1024

inductive Severity where
  | error
  | warning
  | note
deriving DecidableEq, Repr

structure SourceRange where
  line : Nat
  column : Option Nat
deriving DecidableEq, Repr

/-- The file is the text that the tool reported. -/
structure Problem where
  id : String
  runId : String
  projectId : String
  file : Option String
  range : Option SourceRange
  severity : Severity
  message : String
  details : List String
  logOffset : Nat
  logGeneration : Nat
  sourceGeneration : Option Nat
deriving DecidableEq, Repr

/-! ## Captures -/

structure CompilerCapture where
  file : String
  line : String
  column : Option String
  severity : String
  message : String

structure CmakeCapture where
  severity : String
  file : String
  line : String
  command : String

/-- A capture of `make` or `pytest`. -/
structure PlacedCapture where
  file : String
  line : String
  message : String

structure FrameCapture where
  file : String
  line : String

structure UicCapture where
  line : String
  column : Option String
  message : String

/-- `Grammar`, by what each expression captures of a line. -/
structure Patterns where
  compiler : String → Option CompilerCapture
  cmake : String → Option CmakeCapture
  make : String → Option PlacedCapture
  pytest : String → Option PlacedCapture
  pythonFrame : String → Option FrameCapture
  pythonError : String → Bool
  uicError : String → Option UicCapture
  uicFile : String → Option String

/-! ## Texts -/

def decimal (digits : List Char) : Nat :=
  digits.foldl (fun value digit => 10 * value + (digit.toNat - '0'.toNat)) 0

/-- `text.parse::<u32>()`. -/
def parseU32 (text : String) : Option Nat :=
  let digits := match text.toList with
    | '+' :: rest => rest
    | digits => digits
  if digits ≠ [] ∧ digits.all Char.isDigit ∧ decimal digits < 2 ^ 32 then some (decimal digits)
  else none

/-- `position_number`. -/
def positionNumber (text : String) : Option Nat :=
  (parseU32 text).filter fun number => 0 < number && number ≤ 1000000000

def unquote (text : String) : String :=
  match text.toList with
  | '"' :: rest => if rest.getLast? = some '"' then String.ofList rest.dropLast else text
  | _ => text

/-- `trim`. -/
def trim (text : String) : String :=
  String.ofList ((text.toList.dropWhile isWhitespace).reverse.dropWhile isWhitespace).reverse

def startsWith (text start : String) : Bool := start.toList.isPrefixOf text.toList

def asciiLowercase (text : String) : String := String.ofList (text.toList.map Char.toLower)

/-- `to_le_bytes` of a `u64`. -/
def littleEndian (value : Nat) : List UInt8 :=
  (List.range 8).map fun place => UInt8.ofNat (value / 256 ^ place)

def utf8 (text : String) : List UInt8 := text.toByteArray.data.toList

/-- What `add` hashes: every field after its length. -/
def hashed (runId : String) (generation offset : Nat) (message : String) : List UInt8 :=
  [utf8 runId, littleEndian generation, littleEndian offset, utf8 message].flatMap fun field =>
    littleEndian field.length ++ field

/-! ## What the parser has found -/

structure PythonFrame where
  file : String
  line : Nat
  offset : Nat
deriving DecidableEq, Repr

structure UicError where
  line : Nat
  column : Option Nat
  message : String
  offset : Nat
deriving DecidableEq, Repr

structure Diagnostics where
  problems : List Problem
  retained : Nat
  lastProblem : Option Nat
  pythonFrame : Option PythonFrame
  uicError : Option UicError
deriving DecidableEq, Repr

namespace Diagnostics

def empty : Diagnostics where
  problems := []
  retained := 0
  lastProblem := none
  pythonFrame := none
  uicError := none

/-- What a line that cannot be read leaves. -/
def discard (found : Diagnostics) : Diagnostics :=
  { found with pythonFrame := none, uicError := none, lastProblem := none }

section

variable (sha256 : List UInt8 → String) (run : RunInfo) (patterns : Patterns)

/-- `add`, and whether a limit was met. -/
def add (found : Diagnostics) (file : Option String) (range : Option SourceRange)
    (severity : Severity) (message : String) (offset : Nat) : Diagnostics × Bool :=
  let message := safeUtf8 message 2048
  let file := file.filter (·.utf8ByteSize ≤ 4096)
  let size := message.utf8ByteSize + file.elim 0 String.utf8ByteSize
  if maxProblems ≤ found.problems.length ∨ maxRetainedText < found.retained + size then
    ({ found with lastProblem := none }, true)
  else
    let problem : Problem :=
      { id := sha256 (hashed run.runId run.log.generation offset message)
        runId := run.runId
        projectId := run.projectId
        file := file
        range := range
        severity := severity
        message := message
        details := []
        logOffset := offset
        logGeneration := run.log.generation
        sourceGeneration := run.sourceStart.generation }
    ({ found with
        problems := found.problems ++ [problem]
        retained := found.retained + size
        lastProblem := some found.problems.length }, false)

/-! Each rule of `parse_line` says what it makes of a line, or passes it on. -/

def compilerLine (found : Diagnostics) (offset : Nat) (line : String) :
    Option (Diagnostics × Bool) := do
  let capture ← patterns.compiler line
  let position ← positionNumber capture.line
  let word := asciiLowercase capture.severity
  let severity : Severity :=
    if word = "warning" then .warning else if word = "note" then .note else .error
  return found.add sha256 run (some (unquote capture.file))
    (some { line := position, column := capture.column.bind positionNumber }) severity
    capture.message offset

def cmakeLine (found : Diagnostics) (offset : Nat) (line : String) :
    Option (Diagnostics × Bool) := do
  let capture ← patterns.cmake line
  let number ← positionNumber capture.line
  let severity : Severity := if startsWith capture.severity "Warning" then .warning else .error
  return found.add sha256 run (some capture.file) (some { line := number, column := none })
    severity ("CMake " ++ capture.severity ++ " (" ++ capture.command ++ ")") offset

def makeLine (found : Diagnostics) (offset : Nat) (line : String) :
    Option (Diagnostics × Bool) := do
  let capture ← patterns.make line
  return found.add sha256 run (some capture.file)
    ((positionNumber capture.line).map fun line => { line := line, column := none }) .error
    capture.message offset

def pytestLine (found : Diagnostics) (offset : Nat) (line : String) :
    Option (Diagnostics × Bool) := do
  let capture ← patterns.pytest line
  let number ← positionNumber capture.line
  return found.add sha256 run (some capture.file) (some { line := number, column := none })
    .error capture.message offset

/-- The frame whose error comes in a later line. -/
def pythonFrameLine (found : Diagnostics) (offset : Nat) (line : String) :
    Option (Diagnostics × Bool) := do
  let capture ← patterns.pythonFrame line
  return ({ found with
    pythonFrame := (positionNumber capture.line).map fun number =>
      { file := capture.file, line := number, offset := offset } }, false)

def tracebackLine (found : Diagnostics) (line : String) : Option (Diagnostics × Bool) :=
  if startsWith line "Traceback (most recent call last)" then
    some ({ found with pythonFrame := none, lastProblem := none }, false)
  else none

/-- The error of the last frame, at the offset of the frame. -/
def pythonErrorLine (found : Diagnostics) (line : String) : Option (Diagnostics × Bool) := do
  guard (patterns.pythonError (trim line))
  let frame ← found.pythonFrame
  return { found with pythonFrame := none }.add sha256 run (some frame.file)
    (some { line := frame.line, column := none }) .error (trim line) frame.offset

/-- The error whose file comes in a later line. -/
def uicErrorLine (found : Diagnostics) (offset : Nat) (line : String) :
    Option (Diagnostics × Bool) := do
  let capture ← patterns.uicError line
  return ({ found with
    uicError := (positionNumber capture.line).map fun number =>
      { line := number
        column := capture.column.bind positionNumber
        message := capture.message
        offset := offset } }, false)

/-- The file of the last error, at the offset of the error. -/
def uicFileLine (found : Diagnostics) (line : String) : Option (Diagnostics × Bool) := do
  let file ← patterns.uicFile line
  let error ← found.uicError
  return { found with uicError := none }.add sha256 run (some file)
    (some { line := error.line, column := error.column }) .error error.message error.offset

def toolLine (found : Diagnostics) (offset : Nat) (line : String) :
    Option (Diagnostics × Bool) :=
  if startsWith line "Project ERROR:" || startsWith line "CMake Error:" then
    some (found.add sha256 run none none .error line offset)
  else none

/-- Any other line: a detail of the last problem if it is indented. -/
def otherLine (found : Diagnostics) (line : String) : Diagnostics × Bool :=
  let blank := line.toList.all isWhitespace
  if line.toList.head?.any isWhitespace && !blank then
    match found.lastProblem.bind fun index => found.problems[index]?.map (index, ·) with
    | none => (found, false)
    | some (index, problem) =>
      let detail := safeUtf8 line 512
      if problem.details.length < 4 ∧ found.retained + detail.utf8ByteSize ≤ maxRetainedText then
        ({ found with
            problems := found.problems.set index
              { problem with details := problem.details ++ [detail] }
            retained := found.retained + detail.utf8ByteSize }, false)
      else (found, true)
  else if !blank then ({ found with lastProblem := none }, false)
  else (found, false)

/-- `parse_line`. -/
def parseLine (offset : Nat) (line : String) (found : Diagnostics) : Diagnostics × Bool :=
  let rules := [
    found.compilerLine sha256 run patterns offset line,
    found.cmakeLine sha256 run patterns offset line,
    found.makeLine sha256 run patterns offset line,
    found.pytestLine sha256 run patterns offset line,
    found.pythonFrameLine patterns offset line,
    found.tracebackLine line,
    found.pythonErrorLine sha256 run patterns line,
    found.uicErrorLine patterns offset line,
    found.uicFileLine sha256 run patterns line,
    found.toolLine sha256 run offset line]
  (rules.firstM id).getD (found.otherLine line)

end

end Diagnostics

/-- The grammar of the diagnostics of a run. -/
def diagnosticGrammar (sha256 : List UInt8 → String) (patterns : Patterns) (run : RunInfo) :
    Grammar Diagnostics where
  empty := .empty
  parseLine offset line found := found.parseLine sha256 run patterns offset line
  discard := Diagnostics.discard

namespace ProblemParser

/-- Chunk after chunk. -/
def pushAll {δ : Type} (grammar : Grammar δ) (parser : ProblemParser δ) (chunks : List LogChunk) :
    Result (ProblemParser δ) :=
  chunks.foldlM (fun parser chunk => parser.push grammar chunk) parser

end ProblemParser

/-- The problem of an `EditorReview` request. -/
def ProblemSet.lookup (set : ProblemSet Diagnostics) (id : String) : Result Problem :=
  context (set.problems.problems.find? (·.id == id)) "diagnostic expired or not found"

end Idk
