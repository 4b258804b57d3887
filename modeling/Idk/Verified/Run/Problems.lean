import Idk.Run.Diagnostics

/-!
# The parser of a log

The parser reads a log byte by byte, wherever the chunks of it end.  What a complete line makes
of the parser is said once, for any grammar.

**Main results:**

- `Keeps.feed`: what every line keeps of the diagnostics, a whole log keeps.
- `pushAll_contiguous`: pushing the chunks of a log is reading the log.
-/

namespace Idk

namespace ProblemParser

variable {δ : Type} {grammar : Grammar δ} {runId : String}

theorem feed_append (parser : ProblemParser δ) (offset : Nat) (left right : List UInt8) :
    parser.feed grammar offset (left ++ right) =
      (parser.feed grammar offset left).feed grammar (offset + left.length) right := by
  induction left generalizing parser offset with
  | nil => rfl
  | cons byte rest inductionHypothesis =>
    rw [List.cons_append, feed, feed, inductionHypothesis, List.length_cons]
    congr 1
    omega

@[simp] theorem moved_moved (parser : ProblemParser δ) (first second : Nat) :
    (parser.moved first).moved second = parser.moved second := rfl

/-- Where the parser stands says nothing of what it makes of a line. -/
theorem completeLine_moved (parser : ProblemParser δ) (offset : Nat) :
    (parser.moved offset).completeLine grammar = (parser.completeLine grammar).moved offset := by
  simp only [completeLine, show (parser.moved offset).line = parser.line from rfl]
  cases String.fromUTF8? ⟨parser.line.toArray⟩ with
  | none => rfl
  | some text =>
    dsimp only
    by_cases forbidden : text.toList.any forbiddenCharacter = true
    · rw [if_pos forbidden, if_pos forbidden]
      rfl
    · rw [if_neg forbidden, if_neg forbidden]
      change (if (parser.lineLimited || parser.lineAmbiguous) = true then _ else _) = _
      split <;> rfl

theorem marked_moved (parser : ProblemParser δ) (offset : Nat) (byte : UInt8) :
    (parser.moved offset).marked byte = (parser.marked byte).moved offset := by
  simp only [marked, show (parser.moved offset).controls = parser.controls from rfl]
  split <;> rfl

theorem keep_moved (parser : ProblemParser δ) (offset ending : Nat) (kept : Option UInt8) :
    (parser.moved offset).keep grammar ending kept =
      (parser.keep grammar ending kept).moved offset := by
  cases kept with
  | none => rfl
  | some byte =>
    simp only [keep, completeLine_moved, show (parser.moved offset).line = parser.line from rfl]
    split
    · rfl
    · split <;> rfl

theorem feedByte_moved (parser : ProblemParser δ) (offset ending : Nat) (byte : UInt8) :
    (parser.moved offset).feedByte grammar ending byte =
      (parser.feedByte grammar ending byte).moved offset := by
  simp only [feedByte, marked_moved]
  exact keep_moved { parser.marked byte with
    controls := ((parser.marked byte).controls.consume byte).1 } offset ending _

theorem feed_moved (parser : ProblemParser δ) (offset start : Nat) (bytes : List UInt8) :
    (parser.moved offset).feed grammar start bytes =
      (parser.feed grammar start bytes).moved offset := by
  induction bytes generalizing parser start with
  | nil => rfl
  | cons byte rest inductionHypothesis => rw [feed, feed, feedByte_moved, inductionHypothesis]

/-- The parser belongs to one log. -/
structure Of (runId : String) (generation : Nat) (parser : ProblemParser δ) : Prop where
  run : parser.result.runId = runId
  log : parser.result.logGeneration = generation

theorem Of.completeLine {parser : ProblemParser δ} {generation : Nat}
    (belongs : Of runId generation parser) : Of runId generation (parser.completeLine grammar) := by
  simp only [ProblemParser.completeLine]
  cases String.fromUTF8? ⟨parser.line.toArray⟩ with
  | none => exact ⟨belongs.run, belongs.log⟩
  | some text =>
    dsimp only
    by_cases forbidden : text.toList.any forbiddenCharacter = true
    · rw [if_pos forbidden]
      exact ⟨belongs.run, belongs.log⟩
    · rw [if_neg forbidden]
      by_cases lost : (parser.lineLimited || parser.lineAmbiguous) = true
      · rw [if_pos lost]
        exact ⟨belongs.run, belongs.log⟩
      · rw [if_neg lost]
        exact ⟨belongs.run, belongs.log⟩

theorem Of.keep {parser : ProblemParser δ} {generation ending : Nat} {kept : Option UInt8}
    (belongs : Of runId generation parser) :
    Of runId generation (parser.keep grammar ending kept) := by
  have completed := @Of.completeLine _ grammar _ _ _ belongs
  cases kept with
  | none => exact belongs
  | some byte =>
    simp only [ProblemParser.keep]
    split
    · exact ⟨completed.run, completed.log⟩
    · split <;> exact ⟨belongs.run, belongs.log⟩

theorem Of.feedByte {parser : ProblemParser δ} {generation ending : Nat} {byte : UInt8}
    (belongs : Of runId generation parser) :
    Of runId generation (parser.feedByte grammar ending byte) := by
  have same : Of runId generation (parser.marked byte) := by
    simp only [ProblemParser.marked]
    split <;> exact ⟨belongs.run, belongs.log⟩
  exact Of.keep ⟨same.run, same.log⟩

theorem Of.feed {parser : ProblemParser δ} {generation offset : Nat} {bytes : List UInt8}
    (belongs : Of runId generation parser) :
    Of runId generation (parser.feed grammar offset bytes) := by
  induction bytes generalizing parser offset with
  | nil => exact belongs
  | cons byte rest inductionHypothesis => exact inductionHypothesis belongs.feedByte

/-! ## One line -/

/-- The text that a complete line hands to the grammar, if it is readable. -/
def acceptedText (parser : ProblemParser δ) : Option String :=
  match String.fromUTF8? ⟨parser.line.toArray⟩ with
  | none => none
  | some text =>
    if text.toList.any forbiddenCharacter || parser.lineLimited || parser.lineAmbiguous then none
    else some text

/-- A complete line is handed to the grammar or discarded, and leaves nothing behind. -/
structure Completed (grammar : Grammar δ) (parser last : ProblemParser δ) : Prop where
  problems : last.result.problems =
    match parser.acceptedText with
    | none => grammar.discard parser.result.problems
    | some text =>
      (grammar.parseLine parser.lineOffset (safeUtf8 text maxLine) parser.result.problems).1
  line : last.line = []
  offset : last.lineOffset = parser.lineOffset
  limited : last.lineLimited = false
  ambiguous : last.lineAmbiguous = false
  state : last.controls.state = parser.controls.state

theorem completeLine_completed (parser : ProblemParser δ) :
    Completed grammar parser (parser.completeLine grammar) := by
  cases decoded : String.fromUTF8? ⟨parser.line.toArray⟩ with
  | none =>
    have none_ : parser.acceptedText = none := by simp [acceptedText, decoded]
    constructor <;> simp [completeLine, decoded, unreadable, none_]
  | some text =>
    by_cases forbidden : text.toList.any forbiddenCharacter = true
    · have none_ : parser.acceptedText = none := by simp [acceptedText, decoded, forbidden]
      constructor <;> simp [completeLine, decoded, unreadable, none_, forbidden]
    · by_cases lost : (parser.lineLimited || parser.lineAmbiguous) = true
      · have none_ : parser.acceptedText = none := by
          simp only [acceptedText, decoded, Bool.or_assoc, lost, Bool.or_true, if_true]
        constructor <;> simp [completeLine, decoded, unreadable, none_, forbidden, lost]
      · have some_ : parser.acceptedText = some text := by
          simp only [acceptedText, decoded, Bool.or_assoc, lost, Bool.or_false, forbidden]
          simp
        have clear : parser.lineLimited = false ∧ parser.lineAmbiguous = false := by
          simpa only [Bool.or_eq_true, not_or, Bool.not_eq_true] using lost
        constructor <;> simp [completeLine, decoded, parsed, some_, forbidden, clear]

/-- What a grammar keeps at the offset of the line that is being read, whatever it is given. -/
structure Keeps (grammar : Grammar δ) (inv : Nat → δ → Prop) : Prop where
  parse : ∀ ⦃offset line found⦄, inv offset found →
    inv (offset + 1) (grammar.parseLine offset line found).1
  discard : ∀ ⦃offset found⦄, inv offset found → inv offset (grammar.discard found)
  later : ∀ ⦃offset next found⦄, inv offset found → offset ≤ next → inv next found

variable {inv : Nat → δ → Prop}

theorem Keeps.completeLine (keeps : Keeps grammar inv) {parser : ProblemParser δ}
    (holds : inv parser.lineOffset parser.result.problems) :
    inv (parser.lineOffset + 1) (parser.completeLine grammar).result.problems := by
  rw [(completeLine_completed parser).problems]
  split
  · exact keeps.later (keeps.discard holds) (Nat.le_succ _)
  · exact keeps.parse holds

/-- The line begins within what was read, and the diagnostics are those of the lines before. -/
structure Holds (inv : Nat → δ → Prop) (parser : ProblemParser δ) (offset : Nat) : Prop where
  within : parser.lineOffset ≤ offset
  found : inv parser.lineOffset parser.result.problems
  line : parser.line.length ≤ maxLine

theorem Keeps.keep (keeps : Keeps grammar inv) {parser : ProblemParser δ} {offset : Nat}
    (holds : Holds inv parser offset) (kept : Option UInt8) :
    Holds inv (parser.keep grammar (offset + 1) kept) (offset + 1) := by
  cases kept with
  | none => exact ⟨Nat.le_succ_of_le holds.within, holds.found, holds.line⟩
  | some byte =>
    simp only [ProblemParser.keep]
    by_cases ends : byte = 10
    · rw [if_pos ends]
      refine ⟨Nat.le_refl _, ?_, ?_⟩
      · exact keeps.later (keeps.completeLine holds.found) (Nat.succ_le_succ holds.within)
      · have empty : (parser.completeLine grammar).line = [] :=
          (completeLine_completed parser).line
        simp [empty]
    · rw [if_neg ends]
      by_cases room : parser.line.length < maxLine
      · rw [if_pos room]
        refine ⟨Nat.le_succ_of_le holds.within, holds.found, ?_⟩
        simp only [List.length_append, List.length_singleton]
        omega
      · rw [if_neg room]
        exact ⟨Nat.le_succ_of_le holds.within, holds.found, holds.line⟩

theorem Keeps.feedByte (keeps : Keeps grammar inv) {parser : ProblemParser δ} {offset : Nat}
    {byte : UInt8} (holds : Holds inv parser offset) :
    Holds inv (parser.feedByte grammar (offset + 1) byte) (offset + 1) := by
  have marked : Holds inv (parser.marked byte) offset := by
    unfold ProblemParser.marked
    split <;> exact ⟨holds.within, holds.found, holds.line⟩
  have consumed : Holds inv ({ parser.marked byte with
      controls := ((parser.marked byte).controls.consume byte).1 } : ProblemParser δ) offset :=
    ⟨marked.within, marked.found, marked.line⟩
  exact keeps.keep consumed _

/-- What every line keeps a whole log keeps. -/
theorem Keeps.feed (keeps : Keeps grammar inv) {parser : ProblemParser δ} {offset : Nat}
    (holds : Holds inv parser offset) (log : List UInt8) :
    Holds inv (parser.feed grammar offset log) (offset + log.length) := by
  induction log generalizing parser offset with
  | nil => exact holds
  | cons byte rest inductionHypothesis =>
    have last := inductionHypothesis (@Keeps.feedByte _ _ _ keeps _ _ byte holds)
    rw [List.length_cons, Nat.add_comm rest.length 1, ← Nat.add_assoc]
    exact last

/-! ## Chunks -/

/-- The chunks are those of the log of the run from `offset` on, one behind the other. -/
def Contiguous (run : RunInfo) (offset : Nat) : List LogChunk → Prop
  | [] => True
  | chunk :: rest =>
    (chunk.descriptor.runId = run.runId ∧ chunk.descriptor.generation = run.log.generation) ∧
      chunk.offset = offset ∧ chunk.nextOffset = offset + chunk.data.length ∧
      chunk.nextOffset ≤ chunk.descriptor.bytes ∧ chunk.nextOffset < 2 ^ 64 ∧
      base64Length chunk.data.length ≤ 128 * 1024 ∧ Contiguous run chunk.nextOffset rest

instance decidableContiguous (run : RunInfo) :
    ∀ (offset : Nat) (chunks : List LogChunk), Decidable (Contiguous run offset chunks)
  | _, [] => inferInstanceAs (Decidable True)
  | offset, chunk :: rest =>
    have := decidableContiguous run chunk.nextOffset rest
    inferInstanceAs (Decidable ((chunk.descriptor.runId = run.runId ∧
      chunk.descriptor.generation = run.log.generation) ∧ chunk.offset = offset ∧
      chunk.nextOffset = offset + chunk.data.length ∧ chunk.nextOffset ≤ chunk.descriptor.bytes ∧
      chunk.nextOffset < 2 ^ 64 ∧ base64Length chunk.data.length ≤ 128 * 1024 ∧
      Contiguous run chunk.nextOffset rest))

theorem push_next {run : RunInfo} {chunk : LogChunk} {parser : ProblemParser δ}
    (belongs : Of run.runId run.log.generation parser)
    (contiguous : Contiguous run parser.nextOffset [chunk]) :
    parser.push grammar chunk =
      .ok ((parser.feed grammar parser.nextOffset chunk.data).moved chunk.nextOffset) := by
  obtain ⟨owner, place, next, bounded, small, short, -⟩ := contiguous
  have owned : (chunk.descriptor.runId == parser.result.runId &&
      chunk.descriptor.generation == parser.result.logGeneration) = true := by
    simp [belongs.run, belongs.log, owner]
  have placed : (decide (chunk.offset + chunk.data.length < 2 ^ 64) &&
      chunk.offset + chunk.data.length == chunk.nextOffset &&
      decide (chunk.nextOffset ≤ chunk.descriptor.bytes)) = true := by
    have sum : chunk.offset + chunk.data.length = chunk.nextOffset := by omega
    rw [sum, decide_eq_true small, decide_eq_true bounded, beq_self_eq_true]
    rfl
  rw [push, owned, placed, decide_eq_true short, place, beq_self_eq_true]
  rfl

/-- Pushing chunks is reading what they hold. -/
theorem pushAll_contiguous {run : RunInfo} {chunks : List LogChunk} {parser : ProblemParser δ}
    (belongs : Of run.runId run.log.generation parser)
    (stands : parser.moved parser.nextOffset = parser)
    (contiguous : Contiguous run parser.nextOffset chunks) :
    parser.pushAll grammar chunks = .ok
      ((parser.feed grammar parser.nextOffset (chunks.flatMap (·.data))).moved
        (parser.nextOffset + (chunks.flatMap (·.data)).length)) := by
  induction chunks generalizing parser with
  | nil => exact congrArg Except.ok stands.symm
  | cons chunk rest inductionHypothesis =>
    obtain ⟨owner, place, next, bounded, small, short, others⟩ := contiguous
    have pushed : parser.push grammar chunk =
        .ok ((parser.feed grammar parser.nextOffset chunk.data).moved chunk.nextOffset) :=
      push_next belongs ⟨owner, place, next, bounded, small, short, trivial⟩
    have fed : Of run.runId run.log.generation (parser.feed grammar parser.nextOffset chunk.data) :=
      belongs.feed
    have pushedAll := @inductionHypothesis
      ((parser.feed grammar parser.nextOffset chunk.data).moved chunk.nextOffset)
      ⟨fed.run, fed.log⟩ rfl others
    have standing : ((parser.feed grammar parser.nextOffset chunk.data).moved
        chunk.nextOffset).nextOffset = parser.nextOffset + chunk.data.length := next
    rw [standing, feed_moved, moved_moved, ← feed_append] at pushedAll
    rw [pushAll, List.foldlM_cons, pushed]
    rw [List.flatMap_cons, List.length_append, ← Nat.add_assoc]
    exact pushedAll

end ProblemParser

end Idk
