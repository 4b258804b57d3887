import Idk.Run.OutputSink
import Idk.Verified.Run.LeaseRetention

/-!
# What the log keeps of the output

The writer's file is always a prefix of what was pushed.  The bytes that are on their way
to it are those in the writer's hand and those in the queue.
-/

namespace Idk

open Idk.Logic

variable {first last sink : OutputSink} {label : SinkStep}

namespace OutputSink

theorem next_cases (taken : first.next label = some last) :
    first.produce label = some last ∨ first.conclude label = some last ∨
      first.consume label = some last := by
  rw [next, Option.or_eq_some_iff, Option.or_eq_some_iff] at taken
  obtain produced | ⟨_, concluded | ⟨_, consumed⟩⟩ := taken
  · exact .inl produced
  · exact .inr (.inl concluded)
  · exact .inr (.inr consumed)

/-! ## The flags -/

/-- What the flags say of each other, and of the thread that pushes. -/
structure Flags (sink : OutputSink) : Prop where
  quiet : sink.released = true → sink.producer = .idle ∧ sink.finishing = false
  promises : sink.finished = true ∨ sink.finishing = true → sink.promised.isSome = true
  stops : sink.stopped = true → sink.promised = none → sink.limited = true
  limits : sink.producer = .limiting → sink.limited = true
  settled : sink.producer = .idle → sink.returned = sink.pushed.length

theorem Flags.produce (flags : first.Flags) (taken : first.produce label = some last) :
    last.Flags := by
  obtain ⟨quiet, promises, stops, limits, settled⟩ := flags
  cases label <;> simp only [OutputSink.produce, returns, reduceCtorEq] at taken
  all_goals
    (repeat' split at taken) <;> simp only [reduceCtorEq, Option.some.injEq] at taken
    all_goals
      subst taken
      constructor <;> simp_all

theorem Flags.conclude (flags : first.Flags) (taken : first.conclude label = some last) :
    last.Flags := by
  obtain ⟨quiet, promises, stops, limits, settled⟩ := flags
  cases label <;> simp only [OutputSink.conclude, reduceCtorEq] at taken
  all_goals
    split at taken <;> simp only [reduceCtorEq, Option.some.injEq] at taken
    subst taken
    constructor <;> simp_all

theorem Flags.consume (flags : first.Flags) (taken : first.consume label = some last) :
    last.Flags := by
  obtain ⟨quiet, promises, stops, limits, settled⟩ := flags
  cases label <;> simp only [OutputSink.consume, reduceCtorEq] at taken
  all_goals
    (repeat' split at taken) <;> simp only [reduceCtorEq, Option.some.injEq] at taken
    all_goals
      subst taken
      exact ⟨quiet, promises, stops, limits, settled⟩

theorem Flags.start (ticket : BeginTicket) (identity : Nat × Nat) :
    Flags (withFile identity (initialLog ticket)) := by
  constructor <;> simp [withFile]

theorem Flags.next (flags : first.Flags) (taken : first.next label = some last) : last.Flags := by
  obtain produced | concluded | consumed := next_cases taken
  · exact flags.produce produced
  · exact flags.conclude concluded
  · exact flags.consume consumed

end OutputSink

/-! ## The bytes on their way -/

/-- The block that the writer has received and not recorded. -/
def Writer.hand : Writer → List UInt8
  | .received block | .writing block _ _ | .wrote block _ _ => block
  | _ => []

/-- How many bytes of it are in the file. -/
def Writer.filed : Writer → Nat
  | .writing _ _ done => done
  | .wrote _ count false => count
  | _ => 0

/-- The writer has a block. -/
def Writer.holds : Writer → Bool
  | .received _ | .writing _ _ _ | .wrote _ _ _ => true
  | _ => false

/-- The writer is between two writes. -/
def Writer.waits : Writer → Bool
  | .receiving | .timedOut | .received _ | .leaving => true
  | _ => false

/-- The writer has left its loop. -/
def Writer.hasLeft : Writer → Bool
  | .leaving | .synced _ | .ended | .gone => true
  | _ => false

/-- The writer has said how the log ended. -/
def Writer.hasEnded : Writer → Bool
  | .ended | .gone => true
  | _ => false

namespace OutputSink

/-- What `push` still has to send, as long as nothing was left out. -/
def unsent (sink : OutputSink) : Option (List UInt8) :=
  match sink.producer with
  | .idle => if sink.stopped then none else some []
  | .counted bytes => if sink.stopped then none else some bytes
  | .admitted bytes => some bytes
  | .sending blocks => some blocks.flatten
  | .refused | .limiting => none

/-- How many bytes are owed to the log: those that were pushed before `finish`. -/
def owed (sink : OutputSink) : Nat := sink.promised.getD sink.returned

/-- What the channel has taken: `consumed` is what the writer is done with, `rest` what is
    not sent. -/
structure Fed (sink : OutputSink) (consumed rest : List UInt8) : Prop where
  split : sink.pushed = consumed ++ (sink.writer.hand ++ (sink.queue.flatten ++ rest))
  unsent : sink.descriptor.state ≠ .disabled → ∀ left, sink.unsent = some left → rest = left
  kept : sink.descriptor.state ≠ .disabled → sink.limited = false →
    sink.owed ≤ consumed.length + sink.writer.hand.length + sink.queue.flatten.length
  unused : sink.descriptor.state = .disabled →
    sink.queue = [] ∧ sink.writer.holds = false ∧ ∀ blocks, sink.producer ≠ .sending blocks

/-- What the file has of it. -/
structure Filed (sink : OutputSink) (consumed : List UInt8) : Prop where
  begins : sink.written <+: consumed ++ sink.writer.hand
  exactly : sink.broken = false →
    sink.written = consumed.take sink.descriptor.limitBytes ++
      sink.writer.hand.take sink.writer.filed ∧
    sink.descriptor.bytes = min sink.descriptor.limitBytes consumed.length
  bounded : sink.descriptor.bytes ≤ sink.descriptor.limitBytes
  complete : sink.descriptor.state = .recording ∨ sink.descriptor.state = .complete →
    consumed.length ≤ sink.descriptor.limitBytes
  writing : ∀ block count done, sink.writer = .writing block count done →
    count = min (sink.descriptor.limitBytes - sink.descriptor.bytes) block.length ∧
      done ≤ count ∧ sink.broken = false
  wrote : ∀ block count failed, sink.writer = .wrote block count failed →
    count = min (sink.descriptor.limitBytes - sink.descriptor.bytes) block.length ∧
      sink.broken = failed
  failing : sink.broken = true → sink.descriptor.state = .writeFailed ∨
    ∃ block count, sink.writer = .wrote block count true
  working : sink.writer.hasEnded = false → sink.descriptor.state = .disabled ∨
    sink.descriptor.state = .recording ∨ sink.descriptor.state = .limited ∨
    sink.descriptor.state = .writeFailed ∧ sink.broken = true
  closed : sink.file = false →
    sink.descriptor.state = .disabled ∨ sink.descriptor.state = .writeFailed
  absent : sink.descriptor.state = .disabled → sink.file = false ∧ sink.writer ≠ .synced true

variable {consumed rest : List UInt8}

theorem flatten_chunks (size : Nat) (block bytes : List UInt8) :
    (chunks size block bytes).flatten = block ++ bytes := by
  induction bytes generalizing block with
  | nil => cases block <;> simp [chunks]
  | cons byte bytes inductionHypothesis =>
    rw [chunks]
    split
    · simp [inductionHypothesis]
    · simp [inductionHypothesis]

@[simp] theorem hand_of_free {writer : Writer} (free : writer.holds = false) :
    writer.hand = [] := by
  cases writer <;> first | rfl | cases free

theorem downgraded_eq_disabled {state loss : LogState} {lost : Bool} (other : loss ≠ .disabled) :
    state.downgraded lost loss = .disabled ↔ state = .disabled := by
  cases lost <;> cases state <;> simp [LogState.downgraded, other]

theorem reported_disabled :
    sink.reported.state = .disabled ↔ sink.descriptor.state = .disabled := by
  rw [reported, downgraded_eq_disabled (by decide), downgraded_eq_disabled (by decide)]

/-- A call returns with all of its bytes sent, or after the sink was stopped. -/
theorem Fed.returns (flags : first.Flags) (fed : first.Fed consumed rest)
    (sent : first.descriptor.state ≠ .disabled → first.stopped = false → rest = []) :
    first.returns.Fed consumed rest where
  split := fed.split
  unsent enabled left more := by
    cases stopped : first.stopped with
    | true => simp [OutputSink.unsent, OutputSink.returns, stopped] at more
    | false =>
      simp only [OutputSink.unsent, OutputSink.returns, stopped] at more
      cases more
      exact sent enabled stopped
  kept enabled unlimited := by
    cases promise : first.promised with
    | some count => simpa [owed, OutputSink.returns, promise] using fed.kept enabled unlimited
    | none =>
      have going : first.stopped = false := by
        by_contra stopped
        have limited := flags.stops (by simpa using stopped) promise
        simp [OutputSink.returns, limited] at unlimited
      have whole := congrArg List.length fed.split
      rw [sent enabled going] at whole
      simp only [List.length_append, List.length_nil] at whole
      simp only [owed, OutputSink.returns, promise, Option.getD_none]
      omega
  unused disabled := by
    obtain ⟨empty, free, _⟩ := fed.unused disabled
    exact ⟨empty, free, fun blocks sending => nomatch sending⟩

/-- Bytes that were taken, sent or left out stay in their order. -/
theorem Fed.produce (flags : first.Flags) (fed : first.Fed consumed rest)
    (taken : first.produce label = some last) : ∃ rest, last.Fed consumed rest := by
  cases label <;> simp only [OutputSink.produce, reduceCtorEq] at taken
  case push bytes =>
    split at taken <;> cases taken
    rename_i free
    refine ⟨rest ++ bytes, by simp [fed.split], ?_, fed.kept, by simpa [free.1] using fed.unused⟩
    intro enabled left more
    simp only [OutputSink.unsent] at more
    split at more
    · cases more
    · rename_i going
      cases more
      simp [fed.unsent enabled [] (by simp [OutputSink.unsent, free.1, going])]
  case checkStopped =>
    split at taken <;> cases taken
    rename_i bytes counting
    refine ⟨rest, ?_⟩
    split
    · rename_i stopped
      refine fed.returns flags fun _ going => ?_
      rw [going] at stopped
      cases stopped
    · rename_i going
      refine ⟨fed.split, fun enabled left more => fed.unsent enabled left ?_, fed.kept,
        by simpa [counting] using fed.unused⟩
      simpa [OutputSink.unsent, counting, going] using more
  case checkDisabled =>
    split at taken <;> cases taken
    rename_i bytes checking
    refine ⟨rest, ?_⟩
    split
    · rename_i disabled
      rw [reported_disabled] at disabled
      exact fed.returns flags fun enabled => absurd disabled enabled
    · rename_i enabled
      rw [reported_disabled] at enabled
      refine ⟨fed.split, fun _ left more => fed.unsent enabled left ?_, fed.kept,
        fun disabled => absurd disabled enabled⟩
      simpa [OutputSink.unsent, checking, flatten_chunks] using more
  case trySend =>
    split at taken
    · rename_i sending
      cases taken
      refine ⟨rest, fed.returns flags fun enabled _ => ?_⟩
      exact fed.unsent enabled [] (by simp [OutputSink.unsent, sending])
    · rename_i block blocks sending
      split at taken <;> cases taken
      · refine ⟨rest, fed.split, by simp [OutputSink.unsent], fed.kept, fun disabled => ?_⟩
        obtain ⟨empty, free, _⟩ := fed.unused disabled
        exact ⟨empty, free, by simp⟩
      · have enabled : first.descriptor.state ≠ .disabled := fun disabled =>
          (fed.unused disabled).2.2 _ sending
        have whole := fed.unsent enabled (block :: blocks).flatten
          (by simp [OutputSink.unsent, sending])
        refine ⟨blocks.flatten, ?_, ?_, ?_, fun disabled => absurd disabled enabled⟩
        · simp [fed.split, whole]
        · simp [OutputSink.unsent]
        · intro _ unlimited
          have kept := fed.kept enabled unlimited
          simp only [owed, List.flatten_append, List.length_append] at kept ⊢
          omega
    · cases taken
  case storeLimited =>
    split at taken <;> cases taken
    refine ⟨rest, fed.split, by simp [OutputSink.unsent], by simp, fun disabled => ?_⟩
    obtain ⟨empty, free, _⟩ := fed.unused disabled
    exact ⟨empty, free, by simp⟩
  case storeStopped =>
    split at taken <;> cases taken
    rename_i limiting
    have limited := flags.limits limiting
    refine ⟨rest, fed.split, by simp [OutputSink.unsent, OutputSink.returns],
      by simp [OutputSink.returns, limited], fun disabled => ?_⟩
    obtain ⟨empty, free, _⟩ := fed.unused disabled
    exact ⟨empty, free, by simp [OutputSink.returns]⟩

theorem Fed.conclude (fed : first.Fed consumed rest)
    (taken : first.conclude label = some last) : last.Fed consumed rest := by
  cases label <;> simp only [OutputSink.conclude, reduceCtorEq] at taken
  case stop =>
    split at taken <;> cases taken
    refine ⟨fed.split, fun enabled left more => fed.unsent enabled left ?_, ?_, fed.unused⟩
    · simp only [OutputSink.unsent] at more ⊢
      split at more <;> simp_all
    · intro enabled unlimited
      simpa [owed] using fed.kept enabled unlimited
  all_goals
    split at taken <;> cases taken
    exact ⟨fed.split, fed.unsent, fed.kept, fed.unused⟩

/-- The writer's step leaves what was handed to `push` alone. -/
structure Untouched (first last : OutputSink) : Prop where
  pushed : last.pushed = first.pushed
  producer : last.producer = first.producer
  stopped : last.stopped = first.stopped
  limited : last.limited = first.limited
  owed : last.owed = first.owed
  state : last.descriptor.state = .disabled ↔ first.descriptor.state = .disabled

/-- A block that moves on is neither lost nor doubled. -/
theorem Fed.moved {later : List UInt8} (fed : first.Fed consumed rest)
    (untouched : Untouched first last)
    (flow : later ++ (last.writer.hand ++ last.queue.flatten) =
      consumed ++ (first.writer.hand ++ first.queue.flatten))
    (unused : first.descriptor.state = .disabled → last.queue = [] ∧ last.writer.holds = false) :
    last.Fed later rest where
  split := by
    have whole := fed.split
    rw [← List.append_assoc (Writer.hand _), ← List.append_assoc, ← flow] at whole
    rw [untouched.pushed, whole]
    simp
  unsent enabled left more := by
    refine fed.unsent (fun disabled => enabled (untouched.state.mpr disabled)) left ?_
    simpa [OutputSink.unsent, untouched.producer, untouched.stopped] using more
  kept enabled unlimited := by
    have kept := fed.kept (fun disabled => enabled (untouched.state.mpr disabled))
      (untouched.limited ▸ unlimited)
    have total := congrArg List.length flow
    simp only [List.length_append] at total
    rw [untouched.owed]
    omega
  unused disabled := by
    obtain ⟨empty, free⟩ := unused (untouched.state.mp disabled)
    refine ⟨empty, free, fun blocks sending => ?_⟩
    rw [untouched.producer] at sending
    exact (fed.unused (untouched.state.mp disabled)).2.2 blocks sending

/-- Both sides of the channel. -/
structure Spooled (sink : OutputSink) (consumed rest : List UInt8) : Prop where
  fed : sink.Fed consumed rest
  filed : sink.Filed consumed

theorem Filed.waits {writer : Writer} {queue : List (List UInt8)} (filed : first.Filed consumed)
    (free : first.writer.holds = false) (was : first.writer.hasEnded = false)
    (waits : writer.waits = true) :
    Filed { first with writer := writer, queue := queue } consumed where
  begins := by
    have begins := filed.begins
    rw [hand_of_free free, List.append_nil] at begins
    exact begins.trans (List.prefix_append _ _)
  exactly whole := by
    have unfiled : writer.filed = 0 := by cases writer <;> first | rfl | cases waits
    simpa [free, unfiled] using filed.exactly whole
  bounded := filed.bounded
  complete := filed.complete
  writing block count done same := by subst same; cases waits
  wrote block count failed same := by subst same; cases waits
  failing broken := by
    obtain failed | ⟨block, count, same⟩ := filed.failing broken
    · exact .inl failed
    · rw [same] at free
      cases free
  working _ := filed.working was
  closed := filed.closed
  absent disabled := ⟨(filed.absent disabled).1, fun same => by subst same; cases waits⟩

/-- The writer only holds a block of a log that is not disabled. -/
theorem Fed.enabled (fed : first.Fed consumed rest) (holds : first.writer.holds = true) :
    first.descriptor.state ≠ .disabled := fun disabled => by
  rw [(fed.unused disabled).2.1] at holds
  cases holds

/-- A block that is too long for the log is cut at its limit. -/
theorem take_limit {limit : Nat} (consumed block : List UInt8) :
    consumed.take limit ++ block.take (min (limit - min limit consumed.length) block.length) =
      (consumed ++ block).take limit := by
  rw [List.take_append]
  congr 1
  apply List.take_eq_take_iff.mpr
  omega

theorem Spooled.record (spooled : first.Spooled consumed rest) {block : List UInt8} {count : Nat}
    (wrote : first.writer = .wrote block count false) :
    Spooled { first with
      descriptor.bytes := first.descriptor.bytes + count
      descriptor.state := if count < block.length then .limited else first.descriptor.state
      writer := .receiving } (consumed ++ block) rest := by
  obtain ⟨fed, filed⟩ := spooled
  obtain ⟨counted, whole⟩ := filed.wrote block count false wrote
  obtain ⟨written, bytes⟩ := filed.exactly whole
  have enabled := fed.enabled (by rw [wrote]; rfl)
  have working := filed.working (by rw [wrote]; rfl)
  rw [bytes] at counted
  simp only [wrote, Writer.hand, Writer.filed, counted, take_limit] at written
  constructor
  · refine fed.moved ⟨rfl, rfl, rfl, rfl, rfl, ?_⟩ ?_ fun disabled => absurd disabled enabled
    · dsimp only
      split <;> simp [enabled]
    · simp [wrote, Writer.hand]
  · constructor
    · simpa [written, Writer.hand] using List.take_prefix _ _
    · intro _
      refine ⟨by simpa [Writer.hand] using written, ?_⟩
      simp only [bytes, counted, List.length_append]
      omega
    · simp only [bytes, counted]
      omega
    · dsimp only
      intro sound
      split at sound
      · simp at sound
      · have before := filed.complete sound
        rw [List.length_append]
        omega
    · simp
    · simp
    · simp [whole]
    · intro _
      dsimp only
      split
      · simp
      · exact working
    · intro gone
      obtain disabled | failed := filed.closed gone
      · exact absurd disabled enabled
      · simp [failed, whole] at working
    · dsimp only
      split <;> simp [enabled]

theorem Spooled.recordFailed (spooled : first.Spooled consumed rest) {block : List UInt8}
    {count : Nat} (wrote : first.writer = .wrote block count true) :
    Spooled { first with
      descriptor.state := .writeFailed, file := false, writer := .receiving }
      (consumed ++ block) rest := by
  obtain ⟨fed, filed⟩ := spooled
  obtain ⟨_, broken⟩ := filed.wrote block count true wrote
  have enabled := fed.enabled (by rw [wrote]; rfl)
  constructor
  · refine fed.moved ⟨rfl, rfl, rfl, rfl, rfl, by simp [enabled]⟩ ?_
      fun disabled => absurd disabled enabled
    simp [wrote, Writer.hand]
  · have begins := filed.begins
    simp only [wrote, Writer.hand] at begins
    constructor <;> simp [broken, Writer.hand, begins, filed.bounded]

theorem Spooled.lock (spooled : first.Spooled consumed rest) {block : List UInt8}
    (received : first.writer = .received block) (taken : first.consume .lock = some last) :
    ∃ consumed, last.Spooled consumed rest := by
  obtain ⟨fed, filed⟩ := spooled
  have enabled := fed.enabled (by rw [received]; rfl)
  have working := filed.working (by rw [received]; rfl)
  have begins := filed.begins
  simp only [received, Writer.hand] at begins
  simp only [OutputSink.consume, received] at taken
  split at taken <;> cases taken
  · rename_i writable
    have whole : first.broken = false := by
      cases broken : first.broken with
      | false => rfl
      | true =>
        obtain failed | ⟨_, _, same⟩ := filed.failing broken
        · simp [failed] at writable
        · simp [received] at same
    have file : first.file = true := by
      cases gone : first.file with
      | true => rfl
      | false =>
        obtain disabled | failed := filed.closed gone
        · exact absurd disabled enabled
        · simp [failed] at writable
    obtain ⟨written, bytes⟩ := filed.exactly whole
    simp only [received, Writer.hand, Writer.filed] at written
    simp only [file, if_true]
    refine ⟨consumed, fed.moved ⟨rfl, rfl, rfl, rfl, rfl, Iff.rfl⟩ ?_
      fun disabled => absurd disabled enabled, ?_⟩
    · simp [received, Writer.hand]
    · refine ⟨begins, fun _ => ⟨written, bytes⟩, filed.bounded, filed.complete, ?_, by simp,
        by simp [whole], fun _ => working, by simp, fun disabled => absurd disabled enabled⟩
      simp [whole]
  · rename_i closed
    -- Only a write that failed makes the log unwritable, and the block is dropped.
    have broken : first.descriptor.state = .writeFailed ∧ first.broken = true := by
      simpa [enabled, not_or.mp closed] using working
    refine ⟨consumed ++ block, fed.moved ⟨rfl, rfl, rfl, rfl, rfl, Iff.rfl⟩ ?_
      fun disabled => absurd disabled enabled, ?_⟩
    · simp [received, Writer.hand]
    · refine ⟨by simpa [Writer.hand] using begins, by simp [broken.2], filed.bounded,
        by simp [broken.1], by simp, by simp, by simp [broken.1], fun _ => working,
        filed.closed, fun disabled => absurd disabled enabled⟩

/-- In the middle of `write_all`. -/
theorem Spooled.write (spooled : first.Spooled consumed rest) {block : List UInt8}
    {count done : Nat} (writing : first.writer = .writing block count done) :
    (∀ more, 0 < more → done + more ≤ count →
      Spooled { first with
        written := first.written ++ (block.drop done).take more
        writer := .writing block count (done + more) } consumed rest) ∧
    (done = count → Spooled { first with writer := .wrote block count false } consumed rest) ∧
    (done < count → Spooled { first with writer := .wrote block count true, broken := true }
      consumed rest) := by
  obtain ⟨fed, filed⟩ := spooled
  have enabled := fed.enabled (by rw [writing]; rfl)
  have working := filed.working (by rw [writing]; rfl)
  have begins := filed.begins
  obtain ⟨counted, fits, whole⟩ := filed.writing block count done writing
  obtain ⟨written, bytes⟩ := filed.exactly whole
  simp only [writing, Writer.hand, Writer.filed] at begins written
  have moved {writer : Writer} (hand : writer.hand = block) (file : List UInt8) (broken : Bool) :
      Fed { first with written := file, writer := writer, broken := broken } consumed rest :=
    fed.moved ⟨rfl, rfl, rfl, rfl, rfl, Iff.rfl⟩ (by dsimp only; rw [hand, writing]; rfl)
      fun disabled => absurd disabled enabled
  refine ⟨fun more some_ enough => ⟨moved rfl _ _, ?_⟩, fun all => ⟨moved rfl _ _, ?_⟩,
    fun some_ => ⟨moved rfl _ _, ?_⟩⟩
  · -- There is room for a byte, so nothing before it was cut.
    have room : consumed.length < first.descriptor.limitBytes := by omega
    have longer : first.written ++ (block.drop done).take more =
        consumed ++ block.take (done + more) := by
      rw [written, List.take_of_length_le (Nat.le_of_lt room), List.append_assoc, ← List.take_add]
    constructor
    · dsimp only [Writer.hand]
      rw [longer]
      exact List.prefix_append_right_inj _ |>.mpr (List.take_prefix _ _)
    · intro _
      refine ⟨?_, bytes⟩
      dsimp only [Writer.hand, Writer.filed]
      rw [longer, List.take_of_length_le (Nat.le_of_lt room)]
    · exact filed.bounded
    · exact filed.complete
    · simpa [whole] using ⟨counted, enough⟩
    · simp
    · simp [whole]
    · exact fun _ => working
    · exact filed.closed
    · exact fun disabled => absurd disabled enabled
  · subst all
    exact ⟨begins, fun _ => ⟨written, bytes⟩, filed.bounded, filed.complete, by simp,
      by simpa [whole] using counted, by simp [whole], fun _ => working, filed.closed,
      fun disabled => absurd disabled enabled⟩
  · refine ⟨begins, by simp, filed.bounded, filed.complete, by simp, by simpa using counted,
      by simp, ?_, filed.closed, fun disabled => absurd disabled enabled⟩
    intro _
    obtain state | state | state | ⟨_, broken⟩ := working
    · exact .inl state
    · exact .inr (.inl state)
    · exact .inr (.inr (.inl state))
    · simp [whole] at broken

/-- After its loop the writer only says how the log ended. -/
theorem Spooled.leaves (spooled : first.Spooled consumed rest) {writer : Writer}
    {state : LogState} (left : first.writer.hasLeft = true) (leaves : writer.hasLeft = true)
    (onward : first.writer.hasEnded = true → writer.hasEnded = true)
    (synced : writer = .synced true → first.file = true)
    (settled : state = first.descriptor.state ∨ writer.hasEnded = true ∧
      first.descriptor.state ≠ .disabled ∧ (state = .writeFailed ∨
        first.descriptor.state = .recording ∧ state = .complete)) :
    Spooled { first with descriptor.state := state, writer := writer } consumed rest := by
  obtain ⟨fed, filed⟩ := spooled
  have free {writer : Writer} (left : writer.hasLeft = true) :
      writer.holds = false ∧ writer.filed = 0 := by
    cases writer <;> first | exact ⟨rfl, rfl⟩ | cases left
  have begins := filed.begins
  simp only [hand_of_free (free left).1] at begins
  have failing : first.broken = true → first.descriptor.state = .writeFailed := by
    intro broken
    obtain failed | ⟨_, _, same⟩ := filed.failing broken
    · exact failed
    · rw [same] at left
      cases left
  constructor
  · refine fed.moved ⟨rfl, rfl, rfl, rfl, rfl, ?_⟩ ?_ fun disabled => ⟨(fed.unused disabled).1,
      (free leaves).1⟩
    · obtain rfl | ⟨_, enabled, rfl | ⟨_, rfl⟩⟩ := settled <;> simp_all
    · simp [(free left).1, (free leaves).1]
  · constructor
    · simpa [(free leaves).1] using begins
    · intro whole
      simpa [(free left).2, (free leaves).2, (free left).1, (free leaves).1] using
        filed.exactly whole
    · exact filed.bounded
    · intro sound
      apply filed.complete
      obtain rfl | ⟨_, _, rfl | ⟨before, _⟩⟩ := settled
      · exact sound
      · simp at sound
      · exact .inl before
    · intro block count done same
      change writer = _ at same
      subst same
      cases leaves
    · intro block count failed same
      change writer = _ at same
      subst same
      cases leaves
    · intro broken
      have failed := failing broken
      obtain rfl | ⟨_, _, rfl | ⟨before, _⟩⟩ := settled
      · exact .inl failed
      · exact .inl rfl
      · simp [failed] at before
    · intro going
      obtain rfl | ⟨ended, _⟩ := settled
      · cases was : first.writer.hasEnded with
        | true => simp [onward was] at going
        | false => exact filed.working was
      · simp [ended] at going
    · intro gone
      obtain rfl | ⟨_, enabled, rfl | ⟨before, _⟩⟩ := settled
      · exact filed.closed gone
      · exact .inr rfl
      · obtain disabled | failed := filed.closed gone
        · exact absurd disabled enabled
        · simp [failed] at before
    · intro disabled
      have was : first.descriptor.state = .disabled := by
        obtain rfl | ⟨_, _, rfl | ⟨_, rfl⟩⟩ := settled
        · exact disabled
        · cases disabled
        · cases disabled
      obtain ⟨gone, _⟩ := filed.absent was
      refine ⟨gone, fun same => ?_⟩
      simp [synced same] at gone

/-- One step of the writer. -/
theorem Spooled.consume (spooled : first.Spooled consumed rest)
    (taken : first.consume label = some last) :
    ∃ later, last.Spooled later rest ∧ (first.writer.hasLeft = true → later = consumed) := by
  have free {writer : Writer} (same : first.writer = writer) (idle : writer.holds = false) :
      first.writer.holds = false := same ▸ idle
  obtain ⟨fed, filed⟩ := spooled
  have waits {writer : Writer} {queue : List (List UInt8)} (same : first.writer.holds = false)
      (was : first.writer.hasEnded = false) (waits : writer.waits = true)
      (flow : writer.hand ++ queue.flatten = first.queue.flatten)
      (unused : first.queue = [] → queue = [] ∧ writer.holds = false) :
      Spooled { first with writer := writer, queue := queue } consumed rest :=
    ⟨fed.moved ⟨rfl, rfl, rfl, rfl, rfl, Iff.rfl⟩ (by simp [same, flow])
      fun disabled => unused (fed.unused disabled).1, filed.waits same was waits⟩
  cases label <;> simp only [OutputSink.consume, reduceCtorEq] at taken
  case receive =>
    split at taken <;> cases taken
    rename_i block queue receiving full
    exact ⟨consumed, waits (by simp [receiving, Writer.holds]) (by simp [receiving, Writer.hasEnded])
      rfl (by simp [Writer.hand, full]) (by simp [full]), fun _ => rfl⟩
  case timeout =>
    split at taken <;> cases taken
    rename_i empty
    exact ⟨consumed, waits (by simp [empty.1, Writer.holds]) (by simp [empty.1, Writer.hasEnded])
      rfl rfl fun none => ⟨none, rfl⟩, fun _ => rfl⟩
  case disconnect =>
    split at taken <;> cases taken
    rename_i empty
    exact ⟨consumed, waits (by simp [empty.1, Writer.holds]) (by simp [empty.1, Writer.hasEnded])
      rfl rfl fun none => ⟨none, rfl⟩, fun _ => rfl⟩
  case readFinished =>
    split at taken <;> cases taken
    rename_i timed
    refine ⟨consumed, waits (by simp [timed, Writer.holds]) (by simp [timed, Writer.hasEnded])
      ?_ ?_ fun none => ⟨none, ?_⟩, fun _ => rfl⟩
    all_goals split <;> rfl
  case lock =>
    cases writer : first.writer with
    | received block =>
      obtain ⟨later, kept⟩ := Spooled.lock ⟨fed, filed⟩ writer (by simpa only [OutputSink.consume] using taken)
      exact ⟨later, kept, fun left => by simp [Writer.hasLeft] at left⟩
    | _ => simp [writer] at taken
  case write more =>
    split at taken <;> try cases taken
    rename_i block count done writing
    split at taken <;> cases taken
    rename_i fits
    exact ⟨consumed, (Spooled.write ⟨fed, filed⟩ writing).1 more fits.1 fits.2, fun _ => rfl⟩
  case writeDone =>
    split at taken <;> try cases taken
    rename_i block count done writing
    split at taken <;> cases taken
    rename_i all
    exact ⟨consumed, (Spooled.write ⟨fed, filed⟩ writing).2.1 all, fun _ => rfl⟩
  case writeFailed =>
    split at taken <;> try cases taken
    rename_i block count done writing
    split at taken <;> cases taken
    rename_i some_
    exact ⟨consumed, (Spooled.write ⟨fed, filed⟩ writing).2.2 some_, fun _ => rfl⟩
  case record =>
    split at taken <;> cases taken
    · rename_i block count wrote
      refine ⟨_, Spooled.recordFailed ⟨fed, filed⟩ wrote, fun left => ?_⟩
      simp [wrote, Writer.hasLeft] at left
    · rename_i block count wrote
      refine ⟨_, Spooled.record ⟨fed, filed⟩ wrote, fun left => ?_⟩
      simp [wrote, Writer.hasLeft] at left
  case sync failed =>
    split at taken <;> cases taken
    rename_i leaving
    refine ⟨consumed, Spooled.leaves ⟨fed, filed⟩ (by simp [leaving, Writer.hasLeft]) rfl
      (by simp [leaving, Writer.hasEnded]) ?_ (.inl rfl), fun _ => rfl⟩
    intro same
    simp only [Writer.synced.injEq, Bool.and_eq_true] at same
    exact same.1
  case settle =>
    split at taken <;> cases taken
    rename_i failed synced
    refine ⟨consumed, Spooled.leaves ⟨fed, filed⟩ (by simp [synced, Writer.hasLeft]) rfl
      (fun _ => rfl) (by simp) ?_, fun _ => rfl⟩
    split
    · rename_i lost
      subst lost
      exact .inr ⟨rfl, fun disabled => (filed.absent disabled).2 synced, .inl rfl⟩
    · split
      · rename_i recording
        exact .inr ⟨rfl, by simp [recording], .inr ⟨recording, rfl⟩⟩
      · exact .inl rfl
  case exit =>
    split at taken <;> cases taken
    rename_i ended
    exact ⟨consumed, Spooled.leaves ⟨fed, filed⟩ (by simp [ended, Writer.hasLeft]) rfl
      (fun _ => rfl) (by simp) (.inl rfl), fun _ => rfl⟩

/-- What the writer has is its own. -/
theorem own_produce (taken : first.produce label = some last) :
    last.writer = first.writer ∧ last.descriptor = first.descriptor ∧ last.file = first.file ∧
      last.written = first.written ∧ last.broken = first.broken := by
  cases label <;> simp only [OutputSink.produce, returns, reduceCtorEq] at taken
  all_goals
    (repeat' split at taken) <;> cases taken
    all_goals exact ⟨rfl, rfl, rfl, rfl, rfl⟩

theorem own_conclude (taken : first.conclude label = some last) :
    last.writer = first.writer ∧ last.descriptor = first.descriptor ∧ last.file = first.file ∧
      last.written = first.written ∧ last.broken = first.broken := by
  cases label <;> simp only [OutputSink.conclude, reduceCtorEq] at taken
  all_goals
    split at taken <;> cases taken
    exact ⟨rfl, rfl, rfl, rfl, rfl⟩

theorem Filed.own (filed : first.Filed consumed)
    (own : last.writer = first.writer ∧ last.descriptor = first.descriptor ∧
      last.file = first.file ∧ last.written = first.written ∧ last.broken = first.broken) :
    last.Filed consumed := by
  obtain ⟨begins, exactly, bounded, complete, writing, wrote, failing, working, closed, absent⟩ :=
    filed
  obtain ⟨writer, descriptor, file, written, broken⟩ := own
  constructor <;> simp only [writer, descriptor, file, written, broken] <;> assumption

theorem Spooled.start (ticket : BeginTicket) (identity : Nat × Nat) :
    Spooled (withFile identity (initialLog ticket)) [] [] := by
  constructor
  · constructor <;> simp [withFile, Writer.hand, Writer.holds, OutputSink.unsent, owed]
  · by_cases disabled : ticket.plan.task.logging = .disabled <;>
      constructor <;> simp [withFile, initialLog, disabled, Writer.hand, Writer.filed]

theorem Spooled.next (flags : first.Flags) (spooled : first.Spooled consumed rest)
    (taken : first.next label = some last) : ∃ later left, last.Spooled later left ∧
      (first.writer.hasLeft = true → later = consumed) := by
  obtain produced | concluded | written := next_cases taken
  · obtain ⟨left, fed⟩ := spooled.fed.produce flags produced
    exact ⟨consumed, left, ⟨fed, spooled.filed.own (own_produce produced)⟩, fun _ => rfl⟩
  · exact ⟨consumed, rest, ⟨spooled.fed.conclude concluded,
      spooled.filed.own (own_conclude concluded)⟩, fun _ => rfl⟩
  · obtain ⟨later, kept, same⟩ := spooled.consume written
    exact ⟨later, rest, kept, same⟩

/-! ## The end of the log -/

/-- When the writer sees that the collection is finished, nothing is left in the queue. -/
def EndsEmpty (sink : OutputSink) (label : SinkStep) : Prop :=
  label = .readFinished → sink.finished = true → sink.queue = []

/-- A writer that has left its loop is done with all that is owed. -/
structure Drained (sink : OutputSink) (consumed : List UInt8) : Prop where
  final : sink.writer.hasLeft = true → sink.promised.isSome = true ∨ sink.released = true
  done : sink.writer.hasLeft = true → sink.descriptor.state ≠ .disabled → sink.limited = false →
    sink.owed ≤ consumed.length

theorem promised_produce (taken : first.produce label = some last) :
    last.promised = first.promised ∧ last.released = first.released ∧
      (last.limited = false → first.limited = false) := by
  cases label <;> simp only [OutputSink.produce, returns, reduceCtorEq] at taken
  all_goals
    (repeat' split at taken) <;> cases taken
    all_goals simp

theorem promised_conclude (taken : first.conclude label = some last) :
    last.owed = first.owed ∧ last.limited = first.limited ∧
      (first.promised.isSome = true ∨ first.released = true →
        last.promised.isSome = true ∨ last.released = true) := by
  cases label <;> simp only [OutputSink.conclude, reduceCtorEq] at taken
  all_goals
    split at taken <;> cases taken
    simp [owed]

theorem untouched_consume (taken : first.consume label = some last) :
    last.owed = first.owed ∧ last.limited = first.limited ∧ last.promised = first.promised ∧
      last.released = first.released := by
  cases label <;> simp only [OutputSink.consume, reduceCtorEq] at taken
  all_goals
    (repeat' split at taken) <;> cases taken
    all_goals exact ⟨rfl, rfl, rfl, rfl⟩

/-- Nobody pushes when the handles are dropped. -/
theorem held_produce (flags : first.Flags) (taken : first.produce label = some last) :
    first.released = false := by
  cases released : first.released with
  | false => rfl
  | true =>
    have idle := (flags.quiet released).1
    cases label <;> simp [OutputSink.produce, idle, released] at taken

/-- What is owed does not grow once the collection was finished. -/
theorem owed_produce (flags : first.Flags)
    (final : first.promised.isSome = true ∨ first.released = true)
    (taken : first.produce label = some last) : last.owed = first.owed := by
  have promised : first.promised.isSome = true := by
    simpa [held_produce flags taken] using final
  obtain ⟨count, found⟩ := Option.isSome_iff_exists.mp promised
  simp [owed, (promised_produce taken).1, found]

/-- A log that is disabled stays so. -/
theorem disabled_consume (filed : first.Filed consumed)
    (left : first.writer.hasLeft = true) (taken : first.consume label = some last)
    (disabled : first.descriptor.state = .disabled) : last.descriptor.state = .disabled := by
  obtain ⟨_, unsynced⟩ := filed.absent disabled
  cases label <;> simp only [OutputSink.consume, reduceCtorEq] at taken
  all_goals
    (repeat' split at taken) <;> cases taken
  all_goals simp_all [Writer.hasLeft]

/-- The writer leaves its loop with an empty queue, at the end of the collection. -/
theorem leaves_loop (flags : first.Flags) (ends : EndsEmpty first label)
    (taken : first.consume label = some last) (inside : first.writer.hasLeft = false)
    (left : last.writer.hasLeft = true) :
    last.queue = [] ∧ (last.promised.isSome = true ∨ last.released = true) := by
  cases label <;> simp only [OutputSink.consume, reduceCtorEq] at taken
  case disconnect =>
    split at taken <;> cases taken
    rename_i empty
    exact ⟨empty.2.1, .inr empty.2.2⟩
  case readFinished =>
    split at taken <;> cases taken
    cases finished : first.finished with
    | true => exact ⟨ends rfl finished, .inl (flags.promises (.inl finished))⟩
    | false => simp [finished, Writer.hasLeft] at left
  all_goals
    (repeat' split at taken) <;> cases taken
    all_goals simp_all [Writer.hasLeft]

theorem Drained.next {later left : List UInt8} (flags : first.Flags)
    (spooled : first.Spooled consumed rest) (drained : first.Drained consumed)
    (ends : EndsEmpty first label) (taken : first.next label = some last)
    (kept : last.Spooled later left) (same : first.writer.hasLeft = true → later = consumed) :
    last.Drained later := by
  cases inside : first.writer.hasLeft with
  | true =>
    cases same inside
    have final := drained.final inside
    obtain produced | concluded | written := next_cases taken
    · obtain ⟨promised, released, limited⟩ := promised_produce produced
      refine ⟨fun _ => promised ▸ released ▸ final, fun _ enabled unlimited => ?_⟩
      rw [owed_produce flags final produced]
      rw [(own_produce produced).2.1] at enabled
      exact drained.done inside enabled (limited unlimited)
    · obtain ⟨owes, limited, promised⟩ := promised_conclude concluded
      refine ⟨fun _ => promised final, fun _ enabled unlimited => ?_⟩
      rw [owes]
      rw [(own_conclude concluded).2.1] at enabled
      exact drained.done inside enabled (limited ▸ unlimited)
    · obtain ⟨owes, limited, promised, released⟩ := untouched_consume written
      refine ⟨fun _ => promised ▸ released ▸ final, fun _ enabled unlimited => ?_⟩
      rw [owes]
      exact drained.done inside
        (fun disabled => enabled (disabled_consume spooled.filed inside written disabled))
        (limited ▸ unlimited)
  | false =>
    cases leaves : last.writer.hasLeft with
    | false => exact ⟨fun out => by simp [leaves] at out, fun out => by simp [leaves] at out⟩
    | true =>
      obtain produced | concluded | written := next_cases taken
      · rw [(own_produce produced).1, inside] at leaves
        cases leaves
      · rw [(own_conclude concluded).1, inside] at leaves
        cases leaves
      · obtain ⟨empty, final⟩ := leaves_loop flags ends written inside leaves
        refine ⟨fun _ => final, fun _ enabled unlimited => ?_⟩
        have free : last.writer.hand = [] := by
          cases writer : last.writer <;> first | rfl | simp [writer, Writer.hasLeft] at leaves
        simpa [empty, free] using kept.fed.kept enabled unlimited

theorem spooled_reachable (reachable : sinkSystem.Reachable sink) :
    sink.Flags ∧ ∃ consumed rest, sink.Spooled consumed rest := by
  have kept : sinkSystem.Invariant fun sink =>
      sink.Flags ∧ ∃ consumed rest, sink.Spooled consumed rest := by
    constructor
    · rintro start ⟨ticket, identity, rfl⟩
      exact ⟨.start ticket identity, [], [], .start ticket identity⟩
    · rintro first label last ⟨flags, consumed, rest, spooled⟩ taken
      obtain ⟨later, left, kept, _⟩ := spooled.next flags taken
      exact ⟨flags.next taken, later, left, kept⟩
  exact kept.reachable reachable

theorem drained_reachable (reachable : (sinkSystem.restrict EndsEmpty).Reachable sink) :
    ∃ consumed rest, sink.Spooled consumed rest ∧ sink.Drained consumed := by
  have kept : (sinkSystem.restrict EndsEmpty).Invariant fun sink =>
      sink.Flags ∧ ∃ consumed rest, sink.Spooled consumed rest ∧ sink.Drained consumed := by
    constructor
    · rintro start ⟨ticket, identity, rfl⟩
      refine ⟨.start ticket identity, [], [], .start ticket identity, ?_⟩
      constructor <;> simp [withFile, Writer.hasLeft]
    · rintro first label last ⟨flags, consumed, rest, spooled, drained⟩ ⟨taken, ends⟩
      obtain ⟨later, left, kept, same⟩ := spooled.next flags taken
      exact ⟨flags.next taken, later, left, kept, drained.next flags spooled ends taken kept same⟩
  exact (kept.reachable reachable).2

/-- What a log tells of its run. -/
structure Faithful (sink : OutputSink) : Prop where
  prefix_pushed : sink.written <+: sink.pushed
  bounded : sink.reported.bytes ≤ sink.reported.limitBytes
  counted : sink.broken = false →
    sink.written.length = sink.reported.bytes + sink.writer.filed
  whole : sink.writer.hasEnded = true → sink.reported.state = .complete →
    sink.pushed.take sink.owed <+: sink.written

theorem reported_complete (complete : sink.reported.state = .complete) :
    sink.descriptor.state = .complete ∧ sink.limited = false := by
  cases limited : sink.limited <;> cases cut : sink.cut <;> cases state : sink.descriptor.state <;>
    simp_all [reported, LogState.downgraded]

theorem Filed.filed_le (filed : sink.Filed consumed) (whole : sink.broken = false) :
    sink.writer.filed ≤ sink.writer.hand.length := by
  cases writer : sink.writer with
  | writing block count done =>
    have fits := filed.writing block count done writer
    simp only [Writer.filed, Writer.hand]
    omega
  | wrote block count failed =>
    obtain ⟨counted, broken⟩ := filed.wrote block count failed writer
    rw [whole] at broken
    subst broken
    simp only [Writer.filed, Writer.hand]
    omega
  | _ => simp [Writer.filed]

/-- The log of a collection that ends with an empty queue. -/
theorem log_faithful (reachable : (sinkSystem.restrict EndsEmpty).Reachable sink) :
    sink.Faithful := by
  obtain ⟨consumed, rest, ⟨fed, filed⟩, drained⟩ := drained_reachable reachable
  have begins : sink.written <+: sink.pushed := by
    rw [fed.split, ← List.append_assoc]
    exact filed.begins.trans (List.prefix_append _ _)
  refine ⟨begins, filed.bounded, fun whole => ?_, fun ended complete => ?_⟩
  · obtain ⟨written, bytes⟩ := filed.exactly whole
    rw [written, List.length_append, List.length_take, List.length_take,
      Nat.min_eq_left (filed.filed_le whole)]
    exact congrArg (· + sink.writer.filed) bytes.symm
  · obtain ⟨state, unlimited⟩ := reported_complete complete
    have left : sink.writer.hasLeft = true := by
      cases writer : sink.writer <;> first | rfl | simp [writer, Writer.hasEnded] at ended
    have free : sink.writer.hand = [] := by
      cases writer : sink.writer <;> first | rfl | simp [writer, Writer.hasLeft] at left
    have whole : sink.broken = false := by
      cases broken : sink.broken with
      | false => rfl
      | true =>
        obtain failed | ⟨_, _, writer⟩ := filed.failing broken
        · simp [state] at failed
        · simp [writer, Writer.hasLeft] at left
    have all : sink.written = consumed := by
      rw [(filed.exactly whole).1, free, List.take_nil, List.append_nil,
        List.take_of_length_le (filed.complete (.inr state))]
    have done := drained.done left (by simp [state]) unlimited
    rw [all, fed.split, List.take_append_of_le_length done]
    exact List.take_prefix _ _

/-! ## A block in the queue at the end -/

/-- The start of a run whose log is recorded. -/
def sampleTicket : BeginTicket := { Verified.sampleTicket with plan.task.logging := .raw }

def sampleSink : OutputSink := .withFile (1, 7) (initialLog sampleTicket)

/-- One line is pushed and written, then the collection ends. -/
def lineSteps : List SinkStep := [.push [104, 105, 10], .checkStopped, .checkDisabled, .trySend,
  .trySend, .receive, .lock, .write 3, .writeDone, .record, .stop, .finish, .timeout,
  .readFinished, .sync false, .settle]

/-- The line is pushed after the last wait of the writer, which sees the end first. -/
def lateSteps : List SinkStep := [.timeout, .push [104, 105, 10], .checkStopped, .checkDisabled,
  .trySend, .trySend, .stop, .finish, .readFinished, .sync false, .settle]

/-- The steps that end with an empty queue. -/
def nextEmpty (sink : OutputSink) (label : SinkStep) : Option OutputSink :=
  if label = .readFinished ∧ sink.finished = true ∧ sink.queue ≠ [] then none
  else sink.next label

theorem nextEmpty_step (taken : first.nextEmpty label = some last) :
    (sinkSystem.restrict EndsEmpty).step first label last := by
  rw [nextEmpty] at taken
  split at taken
  · cases taken
  · rename_i ends
    refine ⟨taken, fun same finished => ?_⟩
    by_contra full
    exact ends ⟨same, finished, full⟩

theorem sample_faithful : ∃ sink, lineSteps.foldlM nextEmpty sampleSink = some sink ∧
    sink.reported.state = .complete ∧ sink.Faithful := by
  have done : (lineSteps.foldlM nextEmpty sampleSink).map (·.reported.state) = some .complete := by
    decide
  obtain ⟨sink, replayed, complete⟩ := Option.map_eq_some_iff.mp done
  have reachable : (sinkSystem.restrict EndsEmpty).Reachable sink :=
    ⟨sampleSink, lineSteps, ⟨_, _, rfl⟩, System.Run.replay nextEmpty_step replayed⟩
  exact ⟨sink, replayed, complete, log_faithful reachable⟩

/-- A log is called complete without the line that was pushed before its end. -/
theorem late_line_lost : ¬ ∀ sink, sinkSystem.Reachable sink → sink.Faithful := by
  intro faithful
  have done : (lateSteps.foldlM next sampleSink).map (fun sink =>
      (sink.writer.hasEnded, sink.reported.state, sink.pushed, sink.owed, sink.written)) =
      some (true, .complete, [104, 105, 10], 3, []) := by
    decide
  obtain ⟨sink, replayed, seen⟩ := Option.map_eq_some_iff.mp done
  have reachable : sinkSystem.Reachable sink :=
    ⟨sampleSink, lateSteps, ⟨_, _, rfl⟩, System.Run.replay id replayed⟩
  simp only [Prod.mk.injEq] at seen
  obtain ⟨ended, complete, pushed, owed, written⟩ := seen
  have whole := (faithful sink reachable).whole ended complete
  rw [pushed, owed, written] at whole
  simp at whole

end OutputSink

end Idk
