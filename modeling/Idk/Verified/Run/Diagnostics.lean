import Idk.Verified.Run.Problems
import Mathlib.Data.Option.Basic

/-!
# The diagnostics of a log

Whatever the expressions capture, a line adds one problem at most, at its own offset or at that
of an earlier line that waited for it.

**Main results:**

- `parseLine_parsed`: everything that one line can do to the diagnostics.
- `problem_parser_exact`: the same problems for every split of a log, within the limits.
- `problem_identity_exact`: the problems of a log have ids of their own, which stay when the
  log grows.
-/

namespace Idk

variable {sha256 : List UInt8 → String} {run : RunInfo} {patterns : Patterns}

namespace Diagnostics

/-! ## One line -/

/-- The offset that a problem of a line gets: its own, or that of the line it completes, which
    nothing else can complete any more. -/
inductive Source (found : Diagnostics) (offset : Nat) :
    Nat → Option PythonFrame → Option UicError → Prop where
  | line : Source found offset offset found.pythonFrame found.uicError
  | frame {frame : PythonFrame} (waits : found.pythonFrame = some frame) :
      Source found offset frame.offset none found.uicError
  | uic {error : UicError} (waits : found.uicError = some error) :
      Source found offset error.offset found.pythonFrame none

/-- The text that a problem retains. -/
def Problem.size (problem : Problem) : Nat :=
  problem.message.utf8ByteSize + problem.file.elim 0 String.utf8ByteSize +
    (problem.details.map String.utf8ByteSize).sum

/-- A problem as it is added. -/
structure Fresh (sha256 : List UInt8 → String) (run : RunInfo) (problem : Problem) : Prop where
  id : problem.id =
    sha256 (hashed run.runId run.log.generation problem.logOffset problem.message)
  details : problem.details = []

/-- What a line leaves. -/
inductive Parsed (sha256 : List UInt8 → String) (run : RunInfo) (found : Diagnostics)
    (offset : Nat) : Diagnostics → Prop where
  | moved (last : Option Nat) : Parsed sha256 run found offset { found with lastProblem := last }
  | frame (frame : Option PythonFrame) (last : Option Nat)
      (own : ∀ waiting ∈ frame, waiting.offset = offset) :
      Parsed sha256 run found offset { found with pythonFrame := frame, lastProblem := last }
  | uic (error : Option UicError) (own : ∀ waiting ∈ error, waiting.offset = offset) :
      Parsed sha256 run found offset { found with uicError := error }
  | detail {index : Nat} {problem : Problem} {detail : String}
      (there : found.problems[index]? = some problem) (few : problem.details.length < 4)
      (room : found.retained + detail.utf8ByteSize ≤ maxRetainedText) :
      Parsed sha256 run found offset { found with
        problems := found.problems.set index
          { problem with details := problem.details ++ [detail] }
        retained := found.retained + detail.utf8ByteSize }
  | added {problem : Problem} {frame : Option PythonFrame} {error : Option UicError}
      (source : Source found offset problem.logOffset frame error)
      (fresh : Fresh sha256 run problem) (few : found.problems.length < maxProblems)
      (room : found.retained + Problem.size problem ≤ maxRetainedText) :
      Parsed sha256 run found offset
        { problems := found.problems ++ [problem]
          retained := found.retained + Problem.size problem
          lastProblem := some found.problems.length
          pythonFrame := frame
          uicError := error }
  | full {source : Nat} {frame : Option PythonFrame} {error : Option UicError}
      (source : Source found offset source frame error) :
      Parsed sha256 run found offset
        { found with lastProblem := none, pythonFrame := frame, uicError := error }

theorem add_parsed {found : Diagnostics} {offset place : Nat} {frame : Option PythonFrame}
    {error : Option UicError} (source : Source found offset place frame error)
    (file : Option String) (range : Option SourceRange) (severity : Severity) (message : String) :
    Parsed sha256 run found offset
      ({ found with pythonFrame := frame, uicError := error }.add sha256 run file range severity
        message place).1 := by
  unfold add
  dsimp only
  split
  · exact .full source
  · rename_i room
    simp only [not_or, Nat.not_le, Nat.not_lt] at room
    obtain ⟨few, room⟩ := room
    exact .added source ⟨rfl, rfl⟩ few room

section

variable {found : Diagnostics} {offset : Nat} {line : String} {outcome : Diagnostics × Bool}

theorem compilerLine_parsed
    (told : found.compilerLine sha256 run patterns offset line = some outcome) :
    Parsed sha256 run found offset outcome.1 := by
  simp only [compilerLine, Option.bind_eq_bind, Option.bind_eq_some_iff, Option.pure_def,
    Option.some.injEq] at told
  obtain ⟨capture, -, position, -, rfl⟩ := told
  exact add_parsed .line _ _ _ _

theorem cmakeLine_parsed
    (told : found.cmakeLine sha256 run patterns offset line = some outcome) :
    Parsed sha256 run found offset outcome.1 := by
  simp only [cmakeLine, Option.bind_eq_bind, Option.bind_eq_some_iff, Option.pure_def,
    Option.some.injEq] at told
  obtain ⟨capture, -, number, -, rfl⟩ := told
  exact add_parsed .line _ _ _ _

theorem makeLine_parsed
    (told : found.makeLine sha256 run patterns offset line = some outcome) :
    Parsed sha256 run found offset outcome.1 := by
  simp only [makeLine, Option.bind_eq_bind, Option.bind_eq_some_iff, Option.pure_def,
    Option.some.injEq] at told
  obtain ⟨capture, -, rfl⟩ := told
  exact add_parsed .line _ _ _ _

theorem pytestLine_parsed
    (told : found.pytestLine sha256 run patterns offset line = some outcome) :
    Parsed sha256 run found offset outcome.1 := by
  simp only [pytestLine, Option.bind_eq_bind, Option.bind_eq_some_iff, Option.pure_def,
    Option.some.injEq] at told
  obtain ⟨capture, -, number, -, rfl⟩ := told
  exact add_parsed .line _ _ _ _

theorem pythonFrameLine_parsed (told : found.pythonFrameLine patterns offset line = some outcome) :
    Parsed sha256 run found offset outcome.1 := by
  simp only [pythonFrameLine, Option.bind_eq_bind, Option.bind_eq_some_iff, Option.pure_def,
    Option.some.injEq] at told
  obtain ⟨capture, -, rfl⟩ := told
  refine .frame _ found.lastProblem fun waiting mem => ?_
  obtain ⟨number, -, rfl⟩ := Option.map_eq_some_iff.mp mem
  rfl

theorem tracebackLine_parsed (told : found.tracebackLine line = some outcome) :
    Parsed sha256 run found offset outcome.1 := by
  simp only [tracebackLine, Option.ite_none_right_eq_some, Option.some.injEq] at told
  obtain ⟨-, rfl⟩ := told
  exact .frame none none nofun

theorem pythonErrorLine_parsed
    (told : found.pythonErrorLine sha256 run patterns line = some outcome) :
    Parsed sha256 run found offset outcome.1 := by
  simp only [pythonErrorLine, Option.bind_eq_bind, Option.bind_eq_some_iff, Option.pure_def,
    Option.some.injEq] at told
  obtain ⟨_, -, frame, waits, rfl⟩ := told
  exact add_parsed (.frame waits) _ _ _ _

theorem uicErrorLine_parsed (told : found.uicErrorLine patterns offset line = some outcome) :
    Parsed sha256 run found offset outcome.1 := by
  simp only [uicErrorLine, Option.bind_eq_bind, Option.bind_eq_some_iff, Option.pure_def,
    Option.some.injEq] at told
  obtain ⟨capture, -, rfl⟩ := told
  refine .uic _ fun waiting mem => ?_
  obtain ⟨number, -, rfl⟩ := Option.map_eq_some_iff.mp mem
  rfl

theorem uicFileLine_parsed
    (told : found.uicFileLine sha256 run patterns line = some outcome) :
    Parsed sha256 run found offset outcome.1 := by
  simp only [uicFileLine, Option.bind_eq_bind, Option.bind_eq_some_iff, Option.pure_def,
    Option.some.injEq] at told
  obtain ⟨file, -, error, waits, rfl⟩ := told
  exact add_parsed (.uic waits) _ _ _ _

theorem toolLine_parsed (told : found.toolLine sha256 run offset line = some outcome) :
    Parsed sha256 run found offset outcome.1 := by
  simp only [toolLine, Option.ite_none_right_eq_some, Option.some.injEq] at told
  obtain ⟨-, rfl⟩ := told
  exact add_parsed .line _ _ _ _

theorem otherLine_parsed : Parsed sha256 run found offset (found.otherLine line).1 := by
  have same : Parsed sha256 run found offset found := .moved found.lastProblem
  unfold otherLine
  dsimp only
  split
  · split
    · exact same
    · rename_i index problem at_
      obtain ⟨last, -, there⟩ := Option.bind_eq_some_iff.mp at_
      obtain ⟨shown, present, pair⟩ := Option.map_eq_some_iff.mp there
      cases pair
      split
      · rename_i room
        exact .detail present room.1 room.2
      · exact same
  · split
    · exact .moved none
    · exact same

/-- The first rule that says something is one of the rules. -/
theorem mem_of_firstM {α : Type} {rules : List (Option α)} {outcome : α}
    (first : rules.firstM id = some outcome) : some outcome ∈ rules := by
  induction rules with
  | nil => cases first
  | cons rule rest inductionHypothesis =>
    cases rule with
    | none => exact List.mem_cons_of_mem _ (inductionHypothesis first)
    | some told =>
      cases first
      exact List.mem_cons_self

theorem parseLine_parsed :
    Parsed sha256 run found offset (found.parseLine sha256 run patterns offset line).1 := by
  unfold parseLine
  dsimp only
  cases first : List.firstM (m := Option) id _ with
  | none => exact otherLine_parsed
  | some outcome =>
    have mem := mem_of_firstM first
    simp only [List.mem_cons, List.not_mem_nil, or_false] at mem
    obtain told | told | told | told | told | told | told | told | told | told := mem
    · exact compilerLine_parsed told.symm
    · exact cmakeLine_parsed told.symm
    · exact makeLine_parsed told.symm
    · exact pytestLine_parsed told.symm
    · exact pythonFrameLine_parsed told.symm
    · exact tracebackLine_parsed told.symm
    · exact pythonErrorLine_parsed told.symm
    · exact uicErrorLine_parsed told.symm
    · exact uicFileLine_parsed told.symm
    · exact toolLine_parsed told.symm

end

/-! ## The limits -/

/-- What the parser may hold of the problems. -/
structure Bounded (found : Diagnostics) : Prop where
  problems : found.problems.length ≤ maxProblems
  details : ∀ problem ∈ found.problems, problem.details.length ≤ 4
  counted : found.retained = (found.problems.map Problem.size).sum
  retained : found.retained ≤ maxRetainedText

theorem sum_set {problems : List Problem} {index : Nat} {problem : Problem} {detail : String}
    (there : problems[index]? = some problem) :
    ((problems.set index { problem with details := problem.details ++ [detail] }).map
      Problem.size).sum = (problems.map Problem.size).sum + detail.utf8ByteSize := by
  induction problems generalizing index with
  | nil => cases there
  | cons first rest inductionHypothesis =>
    cases index with
    | zero =>
      cases there
      simp only [List.set_cons_zero, List.map_cons, List.sum_cons, Problem.size, List.map_append,
        List.sum_append, List.map_nil, List.sum_nil]
      omega
    | succ index =>
      have others := inductionHypothesis there
      simp only [List.set_cons_succ, List.map_cons, List.sum_cons, others]
      omega

theorem Bounded.parsed {found last : Diagnostics} {offset : Nat} (bounded : Bounded found)
    (parsed : Parsed sha256 run found offset last) : Bounded last := by
  obtain ⟨problems, details, counted, retained⟩ := bounded
  cases parsed with
  | moved | frame | uic | full => exact ⟨problems, details, counted, retained⟩
  | @detail index problem detail there few room =>
    refine ⟨?_, ?_, ?_, room⟩
    · simpa using problems
    · intro other mem
      obtain old | rfl := List.mem_or_eq_of_mem_set mem
      · exact details other old
      · simp only [List.length_append, List.length_singleton]
        omega
    · simp only [sum_set there, counted]
  | @added problem _ _ _ fresh few room =>
    refine ⟨?_, ?_, ?_, room⟩
    · simp only [List.length_append, List.length_singleton]
      omega
    · intro other mem
      obtain old | new := List.mem_append.mp mem
      · exact details other old
      · cases List.mem_singleton.mp new
        simp [fresh.details]
    · simp [counted]

theorem bounded_keeps (sha256 : List UInt8 → String) (patterns : Patterns) (run : RunInfo) :
    ProblemParser.Keeps (diagnosticGrammar sha256 patterns run) fun _ found => Bounded found where
  parse _ _ _ bounded := bounded.parsed parseLine_parsed
  discard _ _ bounded := ⟨bounded.problems, bounded.details, bounded.counted, bounded.retained⟩
  later _ _ _ bounded _ := bounded

theorem bounded_empty : Bounded .empty where
  problems := Nat.zero_le _
  details := nofun
  counted := rfl
  retained := Nat.zero_le _

end Diagnostics

open ProblemParser

/-- The parser holds no more than it may. -/
structure WithinLimits (parser : ProblemParser Diagnostics) : Prop where
  found : parser.result.problems.Bounded
  line : parser.line.length ≤ maxLine

/-- The problems of a run, from the chunks of its log. -/
def problemsOf (sha256 : List UInt8 → String) (patterns : Patterns) (run : RunInfo)
    (chunks : List LogChunk) (descriptor : LogDescriptor) : Result (ProblemSet Diagnostics) := do
  let grammar := diagnosticGrammar sha256 patterns run
  let parser ← (new grammar run).pushAll grammar chunks
  parser.finish grammar descriptor

/-- The parser after the bytes of a log. -/
def parserOf (sha256 : List UInt8 → String) (patterns : Patterns) (run : RunInfo)
    (log : List UInt8) : ProblemParser Diagnostics :=
  (new (diagnosticGrammar sha256 patterns run) run).feed (diagnosticGrammar sha256 patterns run) 0
    log

theorem finish_ok {δ : Type} {grammar : Grammar δ} {parser : ProblemParser δ}
    {descriptor : LogDescriptor} {set : ProblemSet δ}
    (finished : parser.finish grammar descriptor = .ok set) :
    set.problems = (parser.completeLine grammar).result.problems := by
  obtain ⟨_, _, done⟩ := bind_eq_ok.mp finished
  cases done
  rfl

theorem problemsOf_contiguous {chunks : List LogChunk} (split : Contiguous run 0 chunks)
    (descriptor : LogDescriptor) :
    problemsOf sha256 patterns run chunks descriptor =
      ((parserOf sha256 patterns run (chunks.flatMap (·.data))).moved
        (chunks.flatMap (·.data)).length).finish (diagnosticGrammar sha256 patterns run)
          descriptor := by
  have pushed := @pushAll_contiguous _ (diagnosticGrammar sha256 patterns run) _ _
    (new (diagnosticGrammar sha256 patterns run) run) ⟨rfl, rfl⟩ rfl split
  unfold problemsOf
  dsimp only
  rw [pushed]
  show ProblemParser.finish _ _ _ = _
  rw [show (new (diagnosticGrammar sha256 patterns run) run).nextOffset = 0 from rfl, Nat.zero_add]
  rfl

/-- Every split of a log gives the same problems, and the limits hold after every byte. -/
theorem problem_parser_exact {chunks others : List LogChunk} (split : Contiguous run 0 chunks)
    (resplit : Contiguous run 0 others)
    (same : chunks.flatMap (·.data) = others.flatMap (·.data)) :
    (∀ descriptor, problemsOf sha256 patterns run chunks descriptor =
      problemsOf sha256 patterns run others descriptor) ∧
    (∃ parser, (new (diagnosticGrammar sha256 patterns run) run).pushAll
      (diagnosticGrammar sha256 patterns run) chunks = .ok parser ∧ WithinLimits parser) ∧
    (∀ read, read <+: chunks.flatMap (·.data) →
      WithinLimits (parserOf sha256 patterns run read)) ∧
    ∀ descriptor set, problemsOf sha256 patterns run chunks descriptor = .ok set →
      set.problems.Bounded := by
  have limits : ∀ read, WithinLimits (parserOf sha256 patterns run read) := by
    intro read
    have start : Holds (fun _ found => found.Bounded)
        (new (diagnosticGrammar sha256 patterns run) run) 0 :=
      ⟨Nat.le_refl 0, Diagnostics.bounded_empty, Nat.zero_le _⟩
    have holds := (Diagnostics.bounded_keeps sha256 patterns run).feed start read
    exact ⟨holds.found, holds.line⟩
  have whole := limits (chunks.flatMap (·.data))
  refine ⟨?_, ⟨_, pushAll_contiguous ⟨rfl, rfl⟩ rfl split, ⟨whole.found, whole.line⟩⟩,
    fun read _ => limits read, ?_⟩
  · intro descriptor
    rw [problemsOf_contiguous split, problemsOf_contiguous resplit, same]
  · intro descriptor set finished
    rw [problemsOf_contiguous split] at finished
    rw [finish_ok finished]
    exact (Diagnostics.bounded_keeps sha256 patterns run).completeLine whole.found

/-! ## A log in two splits -/

def makeLog (bytes : Nat) : LogDescriptor where
  runId := "run"
  generation := 1
  state := .complete
  bytes := bytes
  observedBytes := bytes
  limitBytes := 1048576
  mergedPty := true
  fileIdentity := none

def makeRun : RunInfo where
  runId := "run"
  operationId := "operation"
  projectId := "project"
  taskId := "task"
  name := "build"
  sessionId := none
  state := .failed
  definitionRevision := 1
  launchDigest := ""
  initializationDigest := ""
  cwd := ["/", "work"]
  sourceRoots := []
  buildOutputs := []
  startedAtMs := 0
  finishedAtMs := some 1
  timeoutSeconds := none
  timeoutRequested := false
  cancelRequested := false
  cleanupConfirmed := true
  exitCode := some 2
  signal := none
  steps := []
  structuredResult := none
  pinned := false
  events := none
  sourceStart :=
    { identity := none, generation := some 7, gitHead := none, dirty := none, statusDigest := none,
      error := none }
  sourceEnd := none
  sourceChanged := none
  artifact :=
    { path := none, fromTask := none, fromRun := none, verifiedBytes := false, snapshot := none,
      snapshotError := none, observedAtMs := none }
  log := makeLog 0
  error := none

/-- The line `a.c:1: error: x`, with more of a message after it. -/
def compilerText (more : String) : String := "a.c:1: error: x" ++ more

/-- What the expressions capture of two lines of a compiler. -/
def makePatterns : Patterns where
  compiler line :=
    if line = compilerText "" then
      some { file := "a.c", line := "1", column := none, severity := "error", message := "x" }
    else if line = compilerText " y" then
      some { file := "a.c", line := "1", column := none, severity := "error", message := "x y" }
    else none
  cmake _ := none
  make _ := none
  pytest _ := none
  pythonFrame _ := none
  pythonError _ := false
  uicError _ := none
  uicFile _ := none

/-- A chunk of a log of `total` bytes. -/
def makeChunk (offset total : Nat) (data : List UInt8) : LogChunk where
  descriptor := makeLog total
  offset := offset
  nextOffset := offset + data.length
  data := data
  eof := false

/-- A hash without collisions. -/
def plainHash (bytes : List UInt8) : String :=
  String.ofList (bytes.map fun byte => Char.ofNat byte.toNat)

def makeLine : List UInt8 := utf8 (compilerText "\n")

/-- A line of a compiler is read in one chunk and byte by byte. -/
theorem problem_parser_exact_compiler :
    problemsOf plainHash makePatterns makeRun [makeChunk 0 16 makeLine] (makeLog 16) =
      problemsOf plainHash makePatterns makeRun
        [makeChunk 0 16 (makeLine.take 7), makeChunk 7 16 (makeLine.drop 7)] (makeLog 16) :=
  (problem_parser_exact (by decide) (by decide) (by decide)).1 (makeLog 16)

end Idk
