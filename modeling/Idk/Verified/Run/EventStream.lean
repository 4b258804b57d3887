import Idk.Run.Producer
import Mathlib.Tactic.SplitIfs

/-!
# What an event stream shows

Every complete line of a stream has a verdict of its own: the event that it holds, or why it
is refused.  The counters of the progress are those of the verdicts, and a stream that has
grown gives every line that was complete before the same verdict.

**Main results:**

- `lines_verdicts`: the loop over the lines counts their verdicts.
- `event_stream_exact`: counters, order, state and growth of any readable stream.
-/

namespace Idk

open Idk.Logic

/-! ## Lines -/

/-- The lines that end with a line break. -/
def ended : List UInt8 → List (List UInt8)
  | [] => []
  | byte :: rest =>
    if byte = 10 then [byte] :: ended rest
    else
      match ended rest with
      | [] => []
      | line :: lines => (byte :: line) :: lines

/-- The stream stops within a line. -/
def Unterminated (bytes : List UInt8) : Prop := ∃ byte ∈ bytes.getLast?, byte ≠ 10

theorem length_ended (bytes : List UInt8) : (ended bytes).length = bytes.count 10 := by
  induction bytes with
  | nil => rfl
  | cons byte rest inductionHypothesis =>
    by_cases feed : byte = 10
    · simp [ended, feed, inductionHypothesis]
    · cases same : ended rest with
      | nil =>
        rw [same] at inductionHypothesis
        simp [ended, feed, same, ← inductionHypothesis]
      | cons line lines =>
        rw [same] at inductionHypothesis
        simp [ended, feed, same, ← inductionHypothesis]

theorem ended_last {bytes line : List UInt8} (mem : line ∈ ended bytes) : line.getLast? = some 10 := by
  induction bytes generalizing line with
  | nil => simp [ended] at mem
  | cons byte rest inductionHypothesis =>
    by_cases feed : byte = 10
    · simp only [ended, feed, if_true, List.mem_cons] at mem
      obtain rfl | mem := mem
      · rfl
      · exact inductionHypothesis mem
    · cases same : ended rest with
      | nil => simp [ended, feed, same] at mem
      | cons first lines =>
        simp only [ended, feed, same, if_false, List.mem_cons] at mem
        rw [same] at inductionHypothesis
        obtain rfl | mem := mem
        · have last := inductionHypothesis (List.mem_cons_self ..)
          rw [List.getLast?_cons, last]
          rfl
        · exact inductionHypothesis (List.mem_cons_of_mem _ mem)

/-- The lines that the loop sees: the complete ones and what is left of the stream. -/
theorem splitInclusive_ended (bytes : List UInt8) :
    ∃ tail : List UInt8, bytes = (ended bytes).flatten ++ tail ∧ 10 ∉ tail ∧
      splitInclusive bytes = ended bytes ++ if tail = [] then [] else [tail] := by
  induction bytes with
  | nil => exact ⟨[], rfl, by simp, rfl⟩
  | cons byte rest inductionHypothesis =>
    obtain ⟨tail, whole, unbroken, lines⟩ := inductionHypothesis
    by_cases feed : byte = 10
    · refine ⟨tail, ?_, unbroken, ?_⟩
      · simp only [ended, feed, if_true, List.flatten_cons, List.append_assoc, ← whole]
        rfl
      · simp [splitInclusive, ended, feed, lines]
    · cases same : ended rest with
      | nil =>
        -- the byte belongs to the tail
        rw [same] at whole lines
        have all : rest = tail := whole
        refine ⟨byte :: tail, ?_, ?_, ?_⟩
        · rw [ended, if_neg feed, same, all]
          rfl
        · simp [unbroken, Ne.symm feed]
        · by_cases empty : tail = [] <;> simp [splitInclusive, ended, feed, same, lines, empty]
      | cons line others =>
        rw [same] at whole lines
        refine ⟨tail, ?_, unbroken, ?_⟩
        · rw [ended, if_neg feed, same]
          simpa using whole
        · simp [splitInclusive, ended, feed, same, lines]

theorem ended_append (bytes more : List UInt8) : ended bytes <+: ended (bytes ++ more) := by
  induction bytes with
  | nil => exact List.nil_prefix
  | cons byte rest inductionHypothesis =>
    by_cases feed : byte = 10
    · simp only [ended, feed, if_true, List.cons_append]
      exact List.cons_prefix_cons.mpr ⟨rfl, inductionHypothesis⟩
    · cases same : ended rest with
      | nil => simp [ended, feed, same]
      | cons line lines =>
        rw [same] at inductionHypothesis
        obtain ⟨others, grown⟩ := inductionHypothesis
        refine ⟨others, ?_⟩
        simp [ended, feed, same, ← grown]

theorem tail_unterminated {bytes tail : List UInt8} (whole : bytes = (ended bytes).flatten ++ tail)
    (unbroken : 10 ∉ tail) : tail ≠ [] ↔ Unterminated bytes := by
  constructor
  · intro some_
    obtain ⟨byte, last⟩ : ∃ byte, tail.getLast? = some byte := by
      cases same : tail.getLast? with
      | none => exact absurd (List.getLast?_eq_none_iff.mp same) some_
      | some byte => exact ⟨byte, rfl⟩
    refine ⟨byte, ?_, ?_⟩
    · rw [whole, List.getLast?_append, last]
      rfl
    · rintro rfl
      exact unbroken (List.mem_of_getLast? last)
  · rintro ⟨byte, last, other⟩ rfl
    rw [List.append_nil] at whole
    obtain ⟨before, split⟩ := List.getLast?_eq_some_iff.mp last
    have member : byte ∈ (ended bytes).flatten := by
      rw [← whole, split]
      simp
    cases shape : (ended bytes).getLast? with
    | none =>
      rw [List.getLast?_eq_none_iff.mp shape] at member
      simp at member
    | some line =>
      obtain ⟨lines, same⟩ := List.getLast?_eq_some_iff.mp shape
      have ends := ended_last (List.mem_of_getLast? shape)
      have final : bytes.getLast? = some 10 := by
        rw [whole, same, List.flatten_append, List.getLast?_append]
        simp [ends]
      rw [final] at last
      exact other (Option.some.inj last).symm

/-! ## Verdicts -/

namespace Observing

variable (decoder : Json.Decoder)

/-- What each of the lines is found to be. -/
def verdicts (observing : Observing) : List (List UInt8) → List (Result ProgressEvent)
  | [] => []
  | raw :: rest =>
    observing.eventOf decoder raw :: (observing.line decoder raw).verdicts rest

variable {decoder}

/-- A verdict rests on the last number and the producer. -/
theorem verdicts_congr {left right : Observing} (previous : left.previous = right.previous)
    (producer : left.producerId = right.producerId) (lines : List (List UInt8)) :
    left.verdicts decoder lines = right.verdicts decoder lines := by
  induction lines generalizing left right with
  | nil => rfl
  | cons raw rest inductionHypothesis =>
    have same : left.eventOf decoder raw = right.eventOf decoder raw := by
      simp only [eventOf, previous, producer]
    simp only [verdicts, same]
    congr 1
    apply inductionHypothesis
    · simp only [line, same]
      split <;> simp_all
    · simp only [line, same]
      split <;> simp_all

theorem verdicts_append (observing : Observing) (lines more : List (List UInt8)) :
    observing.verdicts decoder lines <+: observing.verdicts decoder (lines ++ more) := by
  induction lines generalizing observing with
  | nil => exact List.nil_prefix
  | cons raw rest inductionHypothesis =>
    exact List.cons_prefix_cons.mpr ⟨rfl, inductionHypothesis _⟩

theorem eventOf_accepted {observing : Observing} {raw : List UInt8} {event : ProgressEvent}
    (accepted : observing.eventOf decoder raw = .ok event) :
    event.seq < 2 ^ 64 ∧ (∀ last ∈ observing.previous, last < event.seq) ∧
      ∀ producer ∈ observing.producerId, producer = event.producerRunId := by
  simp only [eventOf, bind_eq_ok, ensure_eq_ok, context_eq_ok] at accepted
  obtain ⟨_, _, value, _, _, _, producer, _, _, _, _, same, seq, numbered, _, later, _, _,
    eventType, _, _, _, done⟩ := accepted
  cases done
  refine ⟨?_, ?_, ?_⟩
  · obtain ⟨found, _, number⟩ := Option.bind_eq_some_iff.mp numbered
    cases found with
    | num number' =>
      simp only [Json.asNat] at number
      split_ifs at number with bounds
      cases number
      simp only
      omega
    | _ => cases number
  · intro last known
    rw [Option.mem_def.mp known] at later
    simpa using later
  · intro expected known
    rw [Option.mem_def.mp known] at same
    simpa using same

end Observing

def accepted (verdicts : List (Result ProgressEvent)) : List ProgressEvent :=
  verdicts.filterMap Except.toOption

def rejected (verdicts : List (Result ProgressEvent)) : Nat :=
  verdicts.countP fun verdict => verdict.toOption.isNone

@[simp] theorem accepted_ok (event : ProgressEvent) (rest : List (Result ProgressEvent)) :
    accepted (.ok event :: rest) = event :: accepted rest := rfl

@[simp] theorem accepted_error (error : String) (rest : List (Result ProgressEvent)) :
    accepted (.error error :: rest) = accepted rest := rfl

@[simp] theorem rejected_ok (event : ProgressEvent) (rest : List (Result ProgressEvent)) :
    rejected (.ok event :: rest) = rejected rest := by
  simp [rejected, Except.toOption]

@[simp] theorem rejected_error (error : String) (rest : List (Result ProgressEvent)) :
    rejected (.error error :: rest) = rejected rest + 1 := by
  simp [rejected, Except.toOption]

theorem accepted_rejected (verdicts : List (Result ProgressEvent)) :
    (accepted verdicts).length + rejected verdicts = verdicts.length := by
  induction verdicts with
  | nil => rfl
  | cons verdict rest inductionHypothesis =>
    cases verdict with
    | ok =>
      simp only [accepted_ok, rejected_ok, List.length_cons]
      omega
    | error =>
      simp only [accepted_error, rejected_error, List.length_cons]
      omega

/-- The numbers start at 0 or 1 and each is one more than the last. -/
def Gapless : Option Nat → List Nat → Prop
  | _, [] => True
  | none, first :: rest => first ≤ 1 ∧ Gapless (some first) rest
  | some last, next :: rest => next = last + 1 ∧ Gapless (some next) rest

namespace Observing

theorem gap_iff {observing : Observing} {event : ProgressEvent} (small : event.seq < 2 ^ 64)
    (later : ∀ last ∈ observing.previous, last < event.seq) (rest : List Nat) :
    Gapless observing.previous (event.seq :: rest) ↔
      observing.gap event = false ∧ Gapless (some event.seq) rest := by
  cases before : observing.previous with
  | none => simp [Gapless, gap, before]
  | some last =>
    have above := later last before
    have saturated : saturatingAdd last 1 = last + 1 := by
      unfold saturatingAdd
      omega
    simp only [Gapless, gap, before, saturated, decide_eq_false_iff_not]
    constructor
    · rintro ⟨next, others⟩
      exact ⟨by omega, others⟩
    · rintro ⟨next, others⟩
      exact ⟨by omega, others⟩

variable (decoder : Json.Decoder)

/-- The numbers of the accepted events grow and their producer is one. -/
theorem accepted_ordered (observing : Observing) (lines : List (List UInt8)) :
    ((accepted (observing.verdicts decoder lines)).map (·.seq)).Pairwise (· < ·) ∧
      (∀ event ∈ accepted (observing.verdicts decoder lines),
        ∀ last ∈ observing.previous, last < event.seq) ∧
      ∃ producer, (∀ expected ∈ observing.producerId, expected = producer) ∧
        ∀ event ∈ accepted (observing.verdicts decoder lines), event.producerRunId = producer := by
  induction lines generalizing observing with
  | nil =>
    refine ⟨by simp [verdicts, accepted], by simp [verdicts, accepted],
      observing.producerId.getD "", ?_, by simp [verdicts, accepted]⟩
    intro expected known
    rw [Option.mem_def.mp known]
    rfl
  | cons raw rest inductionHypothesis =>
    obtain ⟨grow, above, producer, one, same⟩ := inductionHypothesis (observing.line decoder raw)
    cases verdict : observing.eventOf decoder raw with
    | error error =>
      have kept : (observing.line decoder raw).previous = observing.previous ∧
          (observing.line decoder raw).producerId = observing.producerId := by
        simp [line, verdict]
      rw [kept.1] at above
      rw [kept.2] at one
      simp only [verdicts, verdict, accepted_error]
      exact ⟨grow, above, producer, one, same⟩
    | ok event =>
      obtain ⟨-, later, from_⟩ := eventOf_accepted verdict
      have moved : (observing.line decoder raw).previous = some event.seq ∧
          (observing.line decoder raw).producerId = some event.producerRunId := by
        simp [line, verdict]
      rw [moved.1] at above
      rw [moved.2] at one
      have its : event.producerRunId = producer := one _ rfl
      simp only [verdicts, verdict, accepted_ok, List.map_cons, List.pairwise_cons,
        List.forall_mem_cons]
      refine ⟨⟨?_, grow⟩, ⟨later, ?_⟩, producer, ?_, its, same⟩
      · intro seq mem
        obtain ⟨next, there, rfl⟩ := List.mem_map.mp mem
        exact above next there _ rfl
      · intro next there last known
        exact (later last known).trans (above next there _ rfl)
      · intro expected known
        rw [from_ expected known, its]

/-- The counters after the lines are those of the verdicts. -/
theorem counters (observing : Observing) (lines : List (List UInt8)) :
    let after := lines.foldl (line decoder) observing
    let found := observing.verdicts decoder lines
    after.progress.eventsObserved = observing.progress.eventsObserved + (accepted found).length ∧
      after.progress.invalidEvents = observing.progress.invalidEvents + rejected found ∧
      after.progress.state = observing.progress.state ∧
      after.progress.bytesObserved = observing.progress.bytesObserved ∧
      after.progress.truncatedTail = observing.progress.truncatedTail ∧
      observing.progress.sequenceGaps ≤ after.progress.sequenceGaps ∧
      (after.progress.sequenceGaps = observing.progress.sequenceGaps ↔
        Gapless observing.previous ((accepted found).map (·.seq))) := by
  induction lines generalizing observing with
  | nil => simp [verdicts, accepted, rejected, Gapless]
  | cons raw rest inductionHypothesis =>
    obtain ⟨events, invalid, state, bytes, tail, more, gaps⟩ :=
      inductionHypothesis (observing.line decoder raw)
    cases verdict : observing.eventOf decoder raw with
    | error error =>
      simp only [line, verdict] at events invalid state bytes tail more gaps
      simp only [List.foldl_cons, verdicts, verdict, accepted_error, rejected_error, line]
      exact ⟨events, by omega, state, bytes, tail, more, gaps⟩
    | ok event =>
      obtain ⟨small, later, -⟩ := eventOf_accepted verdict
      simp only [line, verdict] at events invalid state bytes tail more gaps
      simp only [List.foldl_cons, verdicts, verdict, accepted_ok, rejected_ok, line, List.map_cons,
        List.length_cons]
      rw [gap_iff small later]
      refine ⟨by omega, invalid, state, bytes, tail, by omega, ?_⟩
      · rw [← gaps]
        by_cases left : observing.gap event = true
        · simp only [left, if_true, Bool.true_eq_false, false_and, iff_false] at more ⊢
          omega
        · simp [left]

/-- What an observation has counted so far only matters for the counters. -/
theorem gaps_congr {left right : Observing} (previous : left.previous = right.previous)
    (producer : left.producerId = right.producerId)
    (gaps : left.progress.sequenceGaps = right.progress.sequenceGaps)
    (lines : List (List UInt8)) :
    (lines.foldl (line decoder) left).progress.sequenceGaps =
      (lines.foldl (line decoder) right).progress.sequenceGaps := by
  induction lines generalizing left right with
  | nil => exact gaps
  | cons raw rest inductionHypothesis =>
    have same : left.eventOf decoder raw = right.eventOf decoder raw := by
      simp only [eventOf, previous, producer]
    simp only [List.foldl_cons]
    cases verdict : right.eventOf decoder raw with
    | error error =>
      rw [verdict] at same
      apply inductionHypothesis <;> simp [line, same, verdict, previous, producer, gaps]
    | ok event =>
      rw [verdict] at same
      have leaves : left.gap event = right.gap event := by
        rw [gap, gap, previous]
      apply inductionHypothesis <;> simp [line, same, verdict, gaps, leaves]

/-- The loop is over the complete lines; what is left of the stream only truncates it. -/
theorem lines_verdicts (observing : Observing) (bytes : List UInt8) :
    ∃ truncated : Bool, (truncated = true ↔ Unterminated bytes) ∧
      observing.lines decoder (splitInclusive bytes) =
        let after := (ended bytes).foldl (line decoder) observing
        { after with progress := { after.progress with
            truncatedTail := after.progress.truncatedTail || truncated } } := by
  obtain ⟨tail, whole, unbroken, split⟩ := splitInclusive_ended bytes
  have complete : ∀ (found rest : List (List UInt8)) (observing : Observing),
      (∀ line ∈ found, line.getLast? = some 10) →
      observing.lines decoder (found ++ rest) =
        (found.foldl (line decoder) observing).lines decoder rest := by
    intro found rest
    induction found with
    | nil =>
      intro observing _
      rfl
    | cons raw others inductionHypothesis =>
      intro observing ends
      have first := ends raw (List.mem_cons_self ..)
      simp only [List.cons_append, lines, first, if_true, List.foldl_cons]
      exact inductionHypothesis _ fun line mem => ends line (List.mem_cons_of_mem _ mem)
  refine ⟨!tail.isEmpty, ?_, ?_⟩
  · simpa using tail_unterminated whole unbroken
  · rw [split, complete _ _ _ fun line mem => ended_last mem]
    by_cases empty : tail = []
    · simp [empty, lines]
    · have open_ : tail.getLast? ≠ some 10 := fun last => unbroken (List.mem_of_getLast? last)
      simp [empty, lines, open_]

end Observing

/-! ## The whole stream -/

/-- The verdicts of a stream's complete lines. -/
def verdictsOf (decoder : Json.Decoder) (expected : Option String) (bytes : List UInt8) :
    List (Result ProgressEvent) :=
  (Observing.start 0 expected).verdicts decoder (ended bytes)

/-- No line is refused, no number is left out and no line is unfinished. -/
structure Sound (decoder : Json.Decoder) (expected : Option String) (bytes : List UInt8) : Prop where
  valid : ∀ verdict ∈ verdictsOf decoder expected bytes, ∃ event, verdict = .ok event
  gapless : Gapless none ((accepted (verdictsOf decoder expected bytes)).map (·.seq))
  terminated : ¬ Unterminated bytes

theorem rejected_eq_zero {verdicts : List (Result ProgressEvent)} :
    rejected verdicts = 0 ↔ ∀ verdict ∈ verdicts, ∃ event, verdict = .ok event := by
  rw [rejected, List.countP_eq_zero]
  constructor
  · intro none_ verdict mem
    cases verdict with
    | ok event => exact ⟨event, rfl⟩
    | error => exact absurd rfl (none_ _ mem)
  · intro all verdict mem
    obtain ⟨event, rfl⟩ := all verdict mem
    simp [Except.toOption]

/-- What a stream shows, in terms of its verdicts. -/
theorem observed_verdicts (decoder : Json.Decoder) (expected : Option String)
    (bytes : List UInt8) :
    let progress := observed decoder expected bytes
    progress.eventsObserved = (accepted (verdictsOf decoder expected bytes)).length ∧
      progress.invalidEvents = rejected (verdictsOf decoder expected bytes) ∧
      progress.bytesObserved = bytes.length ∧
      (progress.state = .observed ↔ Sound decoder expected bytes) := by
  obtain ⟨truncated, tail, loop⟩ :=
    (Observing.start bytes.length expected).lines_verdicts decoder bytes
  have same : (Observing.start bytes.length expected).verdicts decoder (ended bytes) =
      verdictsOf decoder expected bytes :=
    @Observing.verdicts_congr decoder (.start bytes.length expected) (.start 0 expected) rfl rfl _
  obtain ⟨events, invalid, state, size, unbroken, -, gaps⟩ :=
    (Observing.start bytes.length expected).counters decoder (ended bytes)
  rw [same] at events invalid gaps
  simp only [Observing.start, EventProgress.missing, Nat.zero_add] at events invalid
  simp only [Observing.start, EventProgress.missing] at state size unbroken gaps
  have judged : (observed decoder expected bytes).eventsObserved =
        (accepted (verdictsOf decoder expected bytes)).length ∧
      (observed decoder expected bytes).invalidEvents =
        rejected (verdictsOf decoder expected bytes) ∧
      (observed decoder expected bytes).bytesObserved = bytes.length := by
    simp only [observed, loop, EventProgress.judged]
    split_ifs
    · exact ⟨events, invalid, size⟩
    · exact ⟨events, invalid, size⟩
  refine ⟨judged.1, judged.2.1, judged.2.2, ?_⟩
  simp only [observed, loop, EventProgress.judged]
  split_ifs with amiss
  · refine ⟨fun impossible => (by cases impossible), fun sound => absurd amiss ?_⟩
    have none_ := rejected_eq_zero.mpr sound.valid
    have numbered := gaps.mpr sound.gapless
    have closed : truncated = false := by
      cases truncated with
      | false => rfl
      | true => exact absurd (tail.mp rfl) sound.terminated
    simp [Observing.start, EventProgress.missing, invalid, none_, unbroken, closed, numbered]
  · refine ⟨fun _ => ?_, fun _ => state⟩
    simp only [not_or, Nat.not_lt, Nat.le_zero, Bool.not_eq_true, Bool.or_eq_false_iff] at amiss
    refine ⟨?_, ?_, ?_⟩
    · rw [← rejected_eq_zero, ← invalid]
      exact amiss.1
    · exact gaps.mp amiss.2.1
    · intro open_
      have closed := amiss.2.2.2
      rw [tail.mpr open_] at closed
      cases closed

/-- Lines that are added take no gap back. -/
theorem observed_gaps (decoder : Json.Decoder) (expected : Option String) (bytes more : List UInt8) :
    (observed decoder expected bytes).sequenceGaps ≤
      (observed decoder expected (bytes ++ more)).sequenceGaps := by
  have counted : ∀ stream : List UInt8, (observed decoder expected stream).sequenceGaps =
      ((ended stream).foldl (Observing.line decoder)
        (.start 0 expected)).progress.sequenceGaps := by
    intro stream
    obtain ⟨truncated, -, loop⟩ := (Observing.start stream.length expected).lines_verdicts decoder stream
    have same := @Observing.gaps_congr decoder (.start stream.length expected) (.start 0 expected)
      rfl rfl rfl (ended stream)
    simp only [observed, loop, EventProgress.judged]
    split_ifs
    · exact same
    · exact same
  obtain ⟨others, grown⟩ := ended_append bytes more
  rw [counted, counted, ← grown, List.foldl_append]
  obtain ⟨-, -, -, -, -, most, -⟩ := ((ended bytes).foldl (Observing.line decoder)
    (.start 0 expected)).counters decoder others
  exact most

theorem events_read {formats : ProducerFormats} {answers : StoreAnswers} {runId : String}
    {file : ProducerFile} {expected : Option String} {bodies : Bodies} {bytes : List UInt8}
    (read : file.readInput maxEventBytes = .ok (.bytes bytes)) :
    (events formats answers runId file expected false bodies).1 =
      observed formats.decoder expected bytes := by
  simp [events, read]

/-- Of a readable stream, and of the same stream with more bytes: what is accepted is in
    order and from one producer, every complete line is counted once, the state says whether
    anything is amiss, and what has been found of a line stays. -/
theorem event_stream_exact {formats : ProducerFormats} {answers : StoreAnswers} {runId : String}
    {file longer : ProducerFile} {expected : Option String} {bodies : Bodies}
    {bytes more : List UInt8} (read : file.readInput maxEventBytes = .ok (.bytes bytes))
    (readMore : longer.readInput maxEventBytes = .ok (.bytes (bytes ++ more))) :
    let found := verdictsOf formats.decoder expected bytes
    let progress := (events formats answers runId file expected false bodies).1
    let later := (events formats answers runId longer expected false bodies).1
    ((accepted found).map (·.seq)).Pairwise (· < ·) ∧
      (∃ producer, (∀ name ∈ expected, name = producer) ∧
        ∀ event ∈ accepted found, event.producerRunId = producer) ∧
      progress.eventsObserved = (accepted found).length ∧
      progress.eventsObserved + progress.invalidEvents = bytes.count 10 ∧
      (progress.state = .observed ↔ Sound formats.decoder expected bytes) ∧
      found <+: verdictsOf formats.decoder expected (bytes ++ more) ∧
      progress.eventsObserved ≤ later.eventsObserved ∧
      progress.invalidEvents ≤ later.invalidEvents ∧
      progress.sequenceGaps ≤ later.sequenceGaps ∧
      progress.bytesObserved ≤ later.bytesObserved := by
  simp only [events_read read, events_read readMore]
  obtain ⟨events, invalid, size, state⟩ := observed_verdicts formats.decoder expected bytes
  obtain ⟨eventsMore, invalidMore, sizeMore, -⟩ :=
    observed_verdicts formats.decoder expected (bytes ++ more)
  obtain ⟨ordered, -, producer, one, same⟩ :=
    (Observing.start 0 expected).accepted_ordered formats.decoder (ended bytes)
  have kept : verdictsOf formats.decoder expected bytes <+:
      verdictsOf formats.decoder expected (bytes ++ more) := by
    obtain ⟨others, grown⟩ := ended_append bytes more
    rw [verdictsOf, verdictsOf, ← grown]
    exact Observing.verdicts_append _ _ _
  have counted : (verdictsOf formats.decoder expected bytes).length = (ended bytes).length := by
    rw [verdictsOf]
    generalize Observing.start 0 expected = observing
    induction ended bytes generalizing observing with
    | nil => rfl
    | cons raw rest inductionHypothesis => simp [Observing.verdicts, inductionHypothesis]
  refine ⟨ordered, ⟨producer, one, same⟩, events, ?_, state, kept, ?_, ?_, ?_, ?_⟩
  · rw [events, invalid, accepted_rejected, counted, length_ended]
  · rw [events, eventsMore]
    exact (kept.filterMap _).length_le
  · rw [invalid, invalidMore]
    exact kept.sublist.countP_le
  · exact observed_gaps formats.decoder expected bytes more
  · rw [size, sizeMore, List.length_append]
    omega

/-- Finds nothing in a line that only ends. -/
def blankFormats : ProducerFormats where
  isUuid _ := true
  sha256 _ := ""
  root := "/state/results"
  decoder :=
    { decode := fun _ => .error "EOF while parsing a value at line 2 column 0"
      small := by
        intro _ _ impossible
        cases impossible
      short := by
        intro _ _ same
        cases same
        decide }

/-- Nothing is stored of an observation. -/
def idleAnswers : StoreAnswers where
  lock := .ok ()
  read := .ok ()
  isPrivate := true
  sync := .ok ()
  list := .ok ()
  write := .complete
  unlink := .ok ()

/-- An empty line, and another one after it. -/
theorem event_stream_exact_blank :
    (events blankFormats idleAnswers "" (.present true 1 [10] true) none false []).1.invalidEvents ≤
      (events blankFormats idleAnswers "" (.present true 2 [10, 10] true) none false
        []).1.invalidEvents :=
  (@event_stream_exact blankFormats idleAnswers "" (.present true 1 [10] true)
    (.present true 2 [10, 10] true) none [] [10] [10] rfl rfl).2.2.2.2.2.2.2.1

end Idk
