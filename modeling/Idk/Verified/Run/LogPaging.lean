import Idk.Run.LogPaging
import Idk.Verified.Run.CrashSafety
import Idk.Verified.Run.OutputSink
import Idk.Verified.Run.Problems

/-!
# Paging through a growing log

The file only grows, so a length that was taken earlier is a lower bound.  `read_log` takes
the bytes after the length, and may get bytes beyond it.
-/

namespace Idk

open Idk.Logic

/-! ## The log grows -/

namespace OutputSink

variable {first last sink : OutputSink} {label : SinkStep} {runId : String}

/-- What stays of a log while it is written. -/
structure Grows (first last : OutputSink) : Prop where
  written : first.written <+: last.written
  runId : last.descriptor.runId = first.descriptor.runId
  generation : last.descriptor.generation = first.descriptor.generation
  identity : last.descriptor.fileIdentity = first.descriptor.fileIdentity
  limit : last.descriptor.limitBytes = first.descriptor.limitBytes
  disabled : first.descriptor.state = .disabled → last.descriptor.state = .disabled
  enabled : first.descriptor.state ≠ .disabled → last.descriptor.state ≠ .disabled
  unexpired : first.descriptor.state ≠ .expired → last.descriptor.state ≠ .expired

theorem Grows.refl (sink : OutputSink) : Grows sink sink :=
  ⟨List.prefix_rfl, rfl, rfl, rfl, rfl, id, id, id⟩

theorem grows_own (own : last.writer = first.writer ∧ last.descriptor = first.descriptor ∧
    last.file = first.file ∧ last.written = first.written ∧ last.broken = first.broken) :
    Grows first last := by
  obtain ⟨_, descriptor, _, written, _⟩ := own
  constructor <;> simp [descriptor, written]

theorem grows_consume {consumed rest : List UInt8} (spooled : first.Spooled consumed rest)
    (taken : first.consume label = some last) : Grows first last := by
  have enabled := spooled.fed.enabled
  have absent := spooled.filed.absent
  cases label <;> simp only [OutputSink.consume, reduceCtorEq] at taken
  case write more =>
    split at taken <;> try cases taken
    split at taken <;> cases taken
    exact ⟨List.prefix_append _ _, rfl, rfl, rfl, rfl, id, id, id⟩
  case record =>
    split at taken <;> cases taken
    · rename_i writer
      have going := enabled (by rw [writer]; rfl)
      exact ⟨List.prefix_rfl, rfl, rfl, rfl, rfl, fun disabled => absurd disabled going, by simp,
        by simp⟩
    · rename_i writer
      have going := enabled (by rw [writer]; rfl)
      refine ⟨List.prefix_rfl, rfl, rfl, rfl, rfl, fun disabled => absurd disabled going, ?_, ?_⟩
      all_goals
        dsimp only
        split <;> simp
  case settle =>
    split at taken <;> cases taken
    rename_i failed writer
    constructor <;> dsimp only
    · exact List.prefix_rfl
    · intro disabled
      have sound : failed = false := by
        cases failed with
        | false => rfl
        | true => exact absurd writer (absent disabled).2
      simp [sound, disabled]
    · intro going
      split
      · simp
      · split
        · simp
        · exact going
    · intro going
      split
      · simp
      · split
        · simp
        · exact going
  all_goals
    (repeat' split at taken) <;> cases taken
    all_goals exact ⟨List.prefix_rfl, rfl, rfl, rfl, rfl, id, id, id⟩

/-- What a descriptor says of the length of the file. -/
structure Counted (sink : OutputSink) : Prop where
  counted : sink.descriptor.bytes ≤ sink.written.length
  fits : sink.written.length ≤ sink.descriptor.limitBytes

/-- As long as no write has failed, the counts are exact. -/
theorem Filed.counted {consumed : List UInt8} (filed : sink.Filed consumed)
    (whole : sink.broken = false) : sink.Counted := by
  obtain ⟨written, bytes⟩ := filed.exactly whole
  have length : sink.written.length = sink.descriptor.bytes + sink.writer.filed := by
    rw [written, List.length_append, List.length_take, List.length_take,
      Nat.min_eq_left (filed.filed_le whole)]
    exact congrArg (· + sink.writer.filed) bytes.symm
  have room : sink.writer.filed ≤ sink.descriptor.limitBytes - sink.descriptor.bytes := by
    cases writer : sink.writer with
    | writing block count done =>
      have fits := filed.writing block count done writer
      simp only [Writer.filed]
      omega
    | wrote block count failed =>
      obtain ⟨counted, broken⟩ := filed.wrote block count failed writer
      rw [whole] at broken
      subst broken
      simp only [Writer.filed]
      omega
    | _ => simp [Writer.filed]
  have bounded := filed.bounded
  constructor <;> omega

/-- A broken log is not written any more. -/
theorem broken_consume {consumed rest : List UInt8} (spooled : first.Spooled consumed rest)
    (taken : first.consume label = some last) (broken : last.broken = true) :
    last.written = first.written ∧ last.descriptor.bytes = first.descriptor.bytes ∧
      last.descriptor.limitBytes = first.descriptor.limitBytes := by
  have writing := spooled.filed.writing
  have wrote := spooled.filed.wrote
  cases label <;> simp only [OutputSink.consume, reduceCtorEq] at taken
  case write more =>
    split at taken <;> try cases taken
    rename_i writer
    split at taken <;> cases taken
    have whole := (writing _ _ _ writer).2.2
    exact absurd broken (by simp [whole])
  case record =>
    split at taken <;> cases taken
    · exact ⟨rfl, rfl, rfl⟩
    · rename_i writer
      have whole := (wrote _ _ _ writer).2
      exact absurd broken (by simp [whole])
  all_goals
    (repeat' split at taken) <;> cases taken
    all_goals exact ⟨rfl, rfl, rfl⟩

theorem grows_next {consumed rest : List UInt8} (spooled : first.Spooled consumed rest)
    (taken : first.next label = some last) : Grows first last := by
  obtain produced | concluded | written := next_cases taken
  · exact grows_own (own_produce produced)
  · exact grows_own (own_conclude concluded)
  · exact grows_consume spooled written

theorem Counted.next {consumed rest later left : List UInt8} (counted : first.Counted)
    (spooled : first.Spooled consumed rest) (kept : last.Spooled later left)
    (taken : first.next label = some last) : last.Counted := by
  cases broken : last.broken with
  | false => exact kept.filed.counted broken
  | true =>
    obtain ⟨bytes, fits⟩ := counted
    obtain produced | concluded | consumed := next_cases taken
    · obtain ⟨_, descriptor, _, written, _⟩ := own_produce produced
      constructor <;> simpa only [descriptor, written]
    · obtain ⟨_, descriptor, _, written, _⟩ := own_conclude concluded
      constructor <;> simpa only [descriptor, written]
    · obtain ⟨written, count, limit⟩ := broken_consume spooled consumed broken
      constructor <;> simpa only [written, count, limit]

/-- The log of the run `runId`. -/
structure Log (runId : String) (sink : OutputSink) : Prop where
  flags : sink.Flags
  spooled : ∃ consumed rest, sink.Spooled consumed rest
  counted : sink.Counted
  owner : sink.descriptor.runId = runId
  limit : sink.descriptor.limitBytes = logByteLimit
  named : sink.descriptor.state ≠ .disabled → sink.descriptor.fileIdentity.isSome = true
  unexpired : sink.descriptor.state ≠ .expired

theorem Log.start (ticket : BeginTicket) (identity : Nat × Nat) :
    (withFile identity (initialLog ticket)).Log ticket.runId := by
  refine ⟨.start ticket identity, ⟨[], [], .start ticket identity⟩,
    (Spooled.start ticket identity).filed.counted rfl, ?_, ?_, ?_, ?_⟩
  all_goals
    by_cases disabled : ticket.plan.task.logging = .disabled <;>
      simp [withFile, initialLog, disabled]

theorem Log.next (log : first.Log runId) (taken : first.next label = some last) :
    last.Log runId ∧ Grows first last := by
  obtain ⟨flags, ⟨consumed, rest, spooled⟩, counted, owner, limit, named, unexpired⟩ := log
  obtain ⟨later, left, kept, _⟩ := spooled.next flags taken
  have grows := grows_next spooled taken
  refine ⟨⟨flags.next taken, ⟨later, left, kept⟩, counted.next spooled kept taken, ?_, ?_, ?_,
    grows.unexpired unexpired⟩, grows⟩
  · rw [grows.runId, owner]
  · rw [grows.limit, limit]
  · intro enabled
    rw [grows.identity]
    exact named fun disabled => enabled (grows.disabled disabled)

/-- What a descriptor that was taken earlier still says of the log. -/
structure Seen (log : LogDescriptor) (sink : OutputSink) : Prop where
  runId : log.runId = sink.descriptor.runId
  generation : log.generation = sink.descriptor.generation
  identity : log.fileIdentity = sink.descriptor.fileIdentity
  disabled : log.state = .disabled ↔ sink.descriptor.state = .disabled
  unexpired : log.state ≠ .expired
  bytes : log.bytes ≤ sink.written.length

theorem Seen.grows {log : LogDescriptor} (seen : Seen log first) (grows : Grows first last) :
    Seen log last where
  runId := by rw [grows.runId, seen.runId]
  generation := by rw [grows.generation, seen.generation]
  identity := by rw [grows.identity, seen.identity]
  disabled := by
    rw [seen.disabled]
    exact ⟨grows.disabled, fun disabled => by
      by_contra enabled
      exact grows.enabled enabled disabled⟩
  unexpired := seen.unexpired
  bytes := Nat.le_trans seen.bytes grows.written.length_le

theorem Log.reported (log : sink.Log runId) : Seen sink.reported sink := by
  refine ⟨rfl, rfl, rfl, reported_disabled, ?_, log.counted.counted⟩
  have unexpired := log.unexpired
  cases limited : sink.limited <;> cases cut : sink.cut <;> cases state : sink.descriptor.state <;>
    simp_all [OutputSink.reported, LogState.downgraded]

end OutputSink

/-! ## Chunks -/

variable {δ : Type} {grammar : Grammar δ} {registry : RunRegistry} {base : Answers}
  {runId : String}

/-- The chunk says where it ends, does not pass the size it reports, and has the bytes of the
    log in between. -/
structure LogChunk.Sound (written : List UInt8) (chunk : LogChunk) : Prop where
  advances : chunk.nextOffset = chunk.offset + chunk.data.length
  bounded : chunk.nextOffset ≤ chunk.descriptor.bytes
  exactly : chunk.data = (written.drop chunk.offset).take chunk.data.length

theorem LogChunk.Sound.grows {written longer : List UInt8} {chunk : LogChunk}
    (sound : chunk.Sound written) (grows : written <+: longer) : chunk.Sound longer where
  advances := sound.advances
  bounded := sound.bounded
  exactly := by
    obtain ⟨more, rfl⟩ := grows
    have same := sound.exactly
    have inside := congrArg List.length same
    rw [List.length_take, List.length_drop] at inside
    rw [List.drop_append, List.take_append_of_le_length, ← same]
    rw [List.length_drop]
    omega

namespace ProblemParser

/-- The parser has read the first `nextOffset` bytes of the log, each of them once. -/
def Following (grammar : Grammar δ) (runId : String) (generation : Nat) (written : List UInt8)
    (parser : ProblemParser δ) : Prop :=
  ∃ run : RunInfo, run.runId = runId ∧ run.log.generation = generation ∧
    parser.nextOffset ≤ written.length ∧
    parser = ((ProblemParser.new grammar run).feed grammar 0
      (written.take parser.nextOffset)).moved parser.nextOffset

variable {generation : Nat} {written longer : List UInt8} {parser : ProblemParser δ}

theorem Following.of (following : Following grammar runId generation written parser) :
    Of runId generation parser := by
  obtain ⟨run, owner, log, _, same⟩ := following
  have fed : Of runId generation ((ProblemParser.new grammar run).feed grammar 0
      (written.take parser.nextOffset)) := Of.feed ⟨owner, log⟩
  rw [same]
  exact ⟨fed.run, fed.log⟩

theorem Following.grows (following : Following grammar runId generation written parser)
    (grows : written <+: longer) : Following grammar runId generation longer parser := by
  obtain ⟨more, rfl⟩ := grows
  obtain ⟨run, owner, log, within, same⟩ := following
  refine ⟨run, owner, log, ?_, ?_⟩
  · rw [List.length_append]
    omega
  · rw [List.take_append_of_le_length within]
    exact same

theorem Following.start {run : RunInfo} (owner : run.runId = runId) :
    Following grammar runId run.log.generation written (ProblemParser.new grammar run) :=
  ⟨run, owner, rfl, Nat.zero_le _, rfl⟩

/-- The next chunk of the log is accepted if it does not pass the size it reports. -/
theorem Following.push {chunk : LogChunk}
    (following : Following grammar runId generation written parser)
    (sound : chunk.Sound written) (owner : chunk.descriptor.runId = runId)
    (log : chunk.descriptor.generation = generation) (follows : chunk.offset = parser.nextOffset)
    (few : chunk.data.length ≤ chunkLimit) (short : chunk.descriptor.bytes ≤ logByteLimit) :
    ∃ last, parser.push grammar chunk = .ok last ∧ last.nextOffset = chunk.nextOffset ∧
      Following grammar runId generation written last := by
  have belongs := following.of
  obtain ⟨run, runOwner, runLog, within, same⟩ := following
  obtain ⟨advances, bounded, exactly⟩ := sound
  refine ⟨(parser.feed grammar chunk.offset chunk.data).moved chunk.nextOffset, ?_, rfl, run,
    runOwner, runLog, ?_, ?_⟩
  · have position : chunk.offset + chunk.data.length < 2 ^ 64 := by
      rw [← advances]
      have : logByteLimit < 2 ^ 64 := by decide
      omega
    have text : base64Length chunk.data.length ≤ 128 * 1024 := by
      have : chunkLimit = 65536 := by decide
      simp only [base64Length]
      omega
    have owned : (chunk.descriptor.runId == parser.result.runId &&
        chunk.descriptor.generation == parser.result.logGeneration) = true := by
      rw [owner, log, belongs.run, belongs.log, beq_self_eq_true, beq_self_eq_true]
      rfl
    have placed : (decide (chunk.offset + chunk.data.length < 2 ^ 64) &&
        chunk.offset + chunk.data.length == chunk.nextOffset &&
        decide (chunk.nextOffset ≤ chunk.descriptor.bytes)) = true := by
      rw [decide_eq_true position, decide_eq_true bounded, ← advances, beq_self_eq_true]
      rfl
    rw [ProblemParser.push, owned, placed, decide_eq_true text, follows, beq_self_eq_true]
    rfl
  · have inside := congrArg List.length exactly
    rw [List.length_take, List.length_drop] at inside
    show chunk.nextOffset ≤ written.length
    omega
  · have read : written.take chunk.nextOffset =
        written.take parser.nextOffset ++ chunk.data := by
      rw [exactly, ← follows, ← List.take_add, ← advances]
    have length : (written.take parser.nextOffset).length = parser.nextOffset := by
      rw [List.length_take]
      omega
    show _ = ((ProblemParser.new grammar run).feed grammar 0
      (written.take chunk.nextOffset)).moved chunk.nextOffset
    rw [read, feed_append, length, Nat.zero_add, follows]
    conv_lhs => rw [same]
    rw [feed_moved, moved_moved]
    rfl

end ProblemParser

/-! ## The reader -/

open OutputSink

namespace Paging

variable {first last paging : Paging δ} {label : PagingStep}

/-- A request of `problems` is the next one of its parser. -/
def Collects (collector : Collector δ) (request : LogRequest) : Prop :=
  ∃ parser, collector = .running request.generation parser false ∧
    request.offset = parser.nextOffset ∧ request.limit = chunkLimit

def UseSound (collector : Collector δ) : LogUse → Prop
  | .opening => collector = .idle
  | .reading request collecting => collecting = true → Collects collector request
  | .closing => ∃ generation parser, collector = .running generation parser true

/-- An open file. -/
structure Opened (paging : Paging δ) (request : LogRequest) (collecting : Bool)
    (descriptor : LogDescriptor) : Prop where
  seen : Seen descriptor paging.sink
  enabled : descriptor.state ≠ .disabled
  few : request.limit ≤ chunkLimit
  collects : collecting = true → Collects paging.collector request

def CallSound (paging : Paging δ) : LogCall → Prop
  | .idle => True
  | .described use log => Seen log paging.sink ∧ UseSound paging.collector use
  | .asked request collecting descriptor => Opened paging request collecting descriptor
  | .measured request collecting descriptor => Opened paging request collecting descriptor ∧
      request.offset ≤ descriptor.bytes

/-- A collection fails only when it is cancelled. -/
def CollectorSound (grammar : Grammar δ) (runId : String) (sink : OutputSink) :
    Collector δ → Prop
  | .idle | .ended (.ok _) => True
  | .running generation parser _ => generation = sink.descriptor.generation ∧
      parser.Following grammar runId generation sink.written
  | .ended (.error error) => error = "Problems collection cancelled"

structure Sound (grammar : Grammar δ) (runId : String) (paging : Paging δ) : Prop where
  log : paging.sink.Log runId
  call : CallSound paging paging.call
  collector : CollectorSound grammar runId paging.sink paging.collector
  chunks : ∀ chunk ∈ paging.chunks, chunk.Sound paging.sink.written

theorem file_seen (log : paging.sink.Log runId) {descriptor : LogDescriptor}
    (seen : Seen descriptor paging.sink) (enabled : descriptor.state ≠ .disabled) :
    ∃ identity, descriptor.fileIdentity = some identity ∧
      paging.file = .ok (.ok ⟨identity, paging.sink.written.length⟩) := by
  obtain ⟨identity, named⟩ := Option.isSome_iff_exists.mp
    (log.named fun disabled => enabled (seen.disabled.mpr disabled))
  refine ⟨identity, seen.identity.trans named, ?_⟩
  rw [file, named]

/-- `info` returns the descriptor that it has taken from the sink. -/
theorem info_seen (known : (registry.find runId).isSome = true)
    (active : registry.active.contains runId = true) (log : paging.sink.Log runId)
    {descriptor : LogDescriptor} (seen : Seen descriptor paging.sink) :
    ∃ run, registry.info (paging.answers base descriptor) runId = .ok run ∧
      run.runId = runId ∧ run.log = descriptor := by
  obtain ⟨run, found⟩ := Option.isSome_iff_exists.mp known
  have owner : run.runId = runId := by simpa using List.find?_some found
  have observed (run : RunInfo) (same : run.log = descriptor) :
      registry.observeLog (paging.answers base descriptor) runId run = .ok run := by
    rw [RunRegistry.observeLog, same]
    split
    · rfl
    · rename_i enabled
      obtain ⟨identity, named, file⟩ := file_seen log seen enabled
      simp only [answers, file]
      rw [if_neg (by simp [named]), if_neg (Nat.not_lt.mpr seen.bytes), active]
      rfl
  obtain ⟨owned, present⟩ : ∃ owned, registry.active[runId]? = some owned := by
    rw [← Option.isSome_iff_exists]
    simpa using active
  simp only [RunRegistry.info, found, context, present, bind, Except.bind]
  split
  · exact ⟨_, observed _ rfl, owner, rfl⟩
  · exact ⟨_, observed _ rfl, owner, rfl⟩

theorem logDescriptor_ok {answers : Answers} {request : LogRequest} {run : RunInfo}
    (informed : registry.info answers runId = .ok run) {descriptor : LogDescriptor} :
    registry.logDescriptor answers runId request = .ok descriptor ↔
      request.generation = run.log.generation ∧
        (0 < request.limit ∧ request.limit ≤ chunkLimit) ∧ run.log = descriptor := by
  simp only [RunRegistry.logDescriptor, informed, bind_eq_ok, ensure_eq_ok, beq_iff_eq,
    Bool.and_eq_true, decide_eq_true_eq, Except.ok.injEq, exists_eq_left', exists_and_left,
    exists_const, pure, Except.pure]

theorem measured_seen (log : paging.sink.Log runId) {descriptor : LogDescriptor}
    {request : LogRequest} {identity : Nat × Nat} (seen : Seen descriptor paging.sink)
    (named : descriptor.fileIdentity = some identity) :
    descriptor.measured request ⟨identity, paging.sink.written.length⟩ =
      if request.offset ≤ paging.sink.written.length then
        .ok { descriptor with bytes := paging.sink.written.length }
      else .error "log position no longer available" := by
  have fits : min paging.sink.written.length logByteLimit = paging.sink.written.length :=
    Nat.min_eq_left (log.limit ▸ log.counted.fits)
  simp only [LogDescriptor.measured, named, beq_self_eq_true, ensure_true, fits, bind,
    Except.bind, if_neg (Nat.not_lt.mpr seen.bytes)]
  by_cases within : request.offset ≤ paging.sink.written.length
  · simp [within]
    rfl
  · simp [within]

/-- A chunk of the log is handed out. -/
theorem Sound.reply (sound : paging.Sound grammar runId) {request : LogRequest}
    {collecting : Bool} {chunk : LogChunk}
    (collects : collecting = true → Collects paging.collector request)
    (whole : chunk.Sound paging.sink.written)
    (owner : chunk.descriptor.runId = paging.sink.descriptor.runId)
    (log : chunk.descriptor.generation = paging.sink.descriptor.generation)
    (place : chunk.offset = request.offset) (few : chunk.data.length ≤ chunkLimit)
    (short : chunk.descriptor.bytes ≤ logByteLimit) :
    (paging.reply grammar collecting (.ok chunk)).Sound grammar runId where
  log := sound.log
  call := trivial
  collector := by
    cases collecting with
    | false =>
      have same := sound.collector
      cases collector : paging.collector <;> simpa only [Paging.reply, collector] using same
    | true =>
      obtain ⟨parser, running, follows, _⟩ := collects rfl
      have same := sound.collector
      rw [running] at same
      obtain ⟨current, following⟩ := same
      obtain ⟨last, pushed, _, following⟩ := following.push whole (owner.trans sound.log.owner)
        (log.trans current.symm) (place.trans follows) few short
      simp only [Paging.reply, running, Except.bind, pushed]
      exact ⟨current, following⟩
  chunks := by
    intro other listed
    obtain rfl | listed := List.mem_cons.mp listed
    · exact whole
    · exact sound.chunks other listed

/-- Another reader's request is refused. -/
theorem Sound.refuse (sound : paging.Sound grammar runId) (error : String) :
    (paging.reply grammar false (.error error)).Sound grammar runId where
  log := sound.log
  call := trivial
  collector := by
    have same := sound.collector
    cases collector : paging.collector <;> simpa only [Paging.reply, collector] using same
  chunks := sound.chunks

/-- No reader gets bytes beyond the size that it has taken: when it reads, the file has not
    grown within its window, and a log without a file is read from its start. -/
def contained (paging : Paging δ) (label : PagingStep) : Bool :=
  match label, paging.call with
  | .read, .measured request _ descriptor =>
    min (request.offset + request.limit) paging.sink.written.length ≤ descriptor.bytes
  | .inspect, .described (.reading request _) log =>
    log.state ≠ .disabled || request.offset ≤ log.bytes
  | _, _ => true

/-- The condition, of a step. -/
def Contained (paging : Paging δ) (label : PagingStep) : Prop := paging.contained label = true

theorem Sound.inspect (known : (registry.find runId).isSome = true)
    (active : registry.active.contains runId = true) (sound : first.Sound grammar runId)
    {use : LogUse} {log : LogDescriptor} (described : first.call = .described use log)
    (contained : first.Contained .inspect) :
    (first.informed grammar registry base runId use log).Sound grammar runId := by
  have call := sound.call
  rw [described] at call
  obtain ⟨seen, useSound⟩ := call
  obtain ⟨run, informed, owner, same⟩ := @info_seen _ _ base _ _ known active sound.log _ seen
  cases use with
  | opening =>
    simp only [Paging.informed, informed]
    refine ⟨sound.log, trivial, ⟨?_, .start owner⟩, sound.chunks⟩
    rw [same, seen.generation]
  | closing =>
    obtain ⟨generation, parser, running⟩ := useSound
    have following := sound.collector
    rw [running] at following
    obtain ⟨current, following⟩ := following
    have belongs := following.of
    simp only [Paging.informed, running, informed, Except.bind]
    refine ⟨sound.log, trivial, ?_, sound.chunks⟩
    have finished : ∃ set, parser.finish grammar run.log = .ok set := by
      have owned : (run.log.runId == parser.result.runId &&
          run.log.generation == parser.result.logGeneration) = true := by
        rw [same, belongs.run, belongs.log, seen.runId, seen.generation, sound.log.owner, current,
          beq_self_eq_true, beq_self_eq_true]
        rfl
      exact ⟨_, by rw [ProblemParser.finish, owned]; rfl⟩
    obtain ⟨set, finished⟩ := finished
    rw [finished]
    trivial
  | reading request collecting =>
    simp only [Paging.informed]
    cases described' : registry.logDescriptor (first.answers base log) runId request with
    | error error =>
      cases collecting with
      | false => exact sound.refuse error
      | true =>
        -- The loop of `problems` asks for the generation it was told.
        obtain ⟨parser, running, _, limit⟩ := useSound rfl
        have current := sound.collector
        rw [running] at current
        have accepted := (logDescriptor_ok informed).mpr ⟨by rw [same, seen.generation, current.1],
          by rw [limit]; decide, rfl⟩
        rw [accepted] at described'
        cases described'
    | ok descriptor =>
      obtain ⟨_, ⟨_, few⟩, returned⟩ := (logDescriptor_ok informed).mp described'
      rw [same] at returned
      subst returned
      dsimp only
      split
      · rename_i closed
        have disabled : log.state = .disabled := by simpa [seen.unexpired] using closed
        have within : request.offset ≤ log.bytes := by
          simpa [Contained, Paging.contained, described, disabled] using contained
        have fits := Nat.le_trans seen.bytes (sound.log.limit ▸ sound.log.counted.fits)
        exact sound.reply useSound ⟨rfl, within, by simp [LogDescriptor.chunk]⟩ seen.runId
          seen.generation rfl (Nat.zero_le _) fits
      · rename_i open_
        exact ⟨sound.log, ⟨seen, fun disabled => open_ (.inl disabled), few, useSound⟩,
          sound.collector, sound.chunks⟩

theorem Sound.measure (sound : first.Sound grammar runId) {request : LogRequest}
    {collecting : Bool} {descriptor : LogDescriptor}
    (asked : first.call = .asked request collecting descriptor)
    (taken : first.next grammar registry base runId .measure = some last) :
    last.Sound grammar runId := by
  have call := sound.call
  rw [asked] at call
  obtain ⟨seen, enabled, few, collects⟩ := call
  obtain ⟨identity, named, file⟩ := file_seen sound.log seen enabled
  simp only [Paging.next, asked, file, Except.bind, measured_seen sound.log seen named] at taken
  by_cases within : request.offset ≤ first.sink.written.length
  · simp only [within, if_true, Option.some.injEq] at taken
    subst taken
    exact ⟨sound.log, ⟨⟨⟨seen.runId, seen.generation, seen.identity, seen.disabled,
      seen.unexpired, Nat.le_refl _⟩, enabled, few, collects⟩, within⟩, sound.collector,
      sound.chunks⟩
  · simp only [within, if_false, Option.some.injEq] at taken
    subst taken
    cases collecting with
    | false => exact sound.refuse _
    | true =>
      -- What the parser has read is still in the file.
      obtain ⟨parser, running, follows, _⟩ := collects rfl
      have following := sound.collector
      rw [running] at following
      obtain ⟨_, _, _, _, behind, _⟩ := following
      omega

theorem Sound.read (sound : first.Sound grammar runId) {request : LogRequest}
    {collecting : Bool} {descriptor : LogDescriptor}
    (measured : first.call = .measured request collecting descriptor)
    (contained : first.Contained .read) :
    (first.reply grammar collecting (.ok (descriptor.chunk request
      ((first.sink.written.drop request.offset).take request.limit)))).Sound grammar runId := by
  have call := sound.call
  rw [measured] at call
  obtain ⟨⟨seen, _, few, collects⟩, within⟩ := call
  simp only [Contained, Paging.contained, measured, decide_eq_true_eq] at contained
  have behind := seen.bytes
  have length : ((first.sink.written.drop request.offset).take request.limit).length =
      min request.limit (first.sink.written.length - request.offset) := by
    rw [List.length_take, List.length_drop]
  refine sound.reply collects ⟨rfl, ?_, ?_⟩ seen.runId seen.generation rfl ?_
    (Nat.le_trans seen.bytes (sound.log.limit ▸ sound.log.counted.fits))
  · show request.offset + _ ≤ descriptor.bytes
    rw [length]
    omega
  · dsimp only [LogDescriptor.chunk]
    rw [length, List.take_eq_take_iff, List.length_drop]
    omega
  · dsimp only [LogDescriptor.chunk]
    rw [length]
    omega

theorem Sound.output (sound : first.Sound grammar runId) {step : SinkStep} {sink : OutputSink}
    (taken : first.sink.next step = some sink) :
    Sound grammar runId { first with sink := sink } := by
  obtain ⟨log, grows⟩ := sound.log.next taken
  refine ⟨log, ?_, ?_, fun chunk listed => (sound.chunks chunk listed).grows grows.written⟩
  · have call := sound.call
    show CallSound { first with sink := sink } first.call
    cases place : first.call <;> rw [place] at call
    · trivial
    · exact ⟨call.1.grows grows, call.2⟩
    · exact ⟨call.seen.grows grows, call.enabled, call.few, call.collects⟩
    · exact ⟨⟨call.1.seen.grows grows, call.1.enabled, call.1.few, call.1.collects⟩, call.2⟩
  · have collector := sound.collector
    show CollectorSound grammar runId sink first.collector
    cases place : first.collector <;> rw [place] at collector
    · trivial
    · exact ⟨collector.1.trans grows.generation.symm, collector.2.grows grows.written⟩
    · rename_i result
      cases result <;> exact collector

/-- One step of the writer or of the reader. -/
theorem Sound.next (known : (registry.find runId).isSome = true)
    (active : registry.active.contains runId = true) (sound : first.Sound grammar runId)
    (contained : first.Contained label)
    (taken : first.next grammar registry base runId label = some last) :
    last.Sound grammar runId := by
  cases label with
  | output step =>
    simp only [Paging.next, Option.map_eq_some_iff] at taken
    obtain ⟨sink, taken, rfl⟩ := taken
    exact sound.output taken
  | collect =>
    simp only [Paging.next] at taken
    split at taken
    · obtain ⟨use, next, rfl⟩ := Option.map_eq_some_iff.mp taken
      refine ⟨sound.log, ⟨sound.log.reported, ?_⟩, sound.collector, sound.chunks⟩
      show UseSound first.collector use
      simp only [nextUse] at next
      split at next <;> cases next
      · assumption
      · rename_i generation parser running
        exact fun _ => ⟨parser, running, rfl, rfl⟩
      · rename_i generation parser running
        exact ⟨generation, parser, running⟩
    · cases taken
  | cancel =>
    simp only [Paging.next] at taken
    split at taken <;> cases taken
    rename_i idle _
    refine ⟨sound.log, ?_, rfl, sound.chunks⟩
    show CallSound _ first.call
    rw [idle]
    trivial
  | request request =>
    simp only [Paging.next] at taken
    split at taken <;> cases taken
    exact ⟨sound.log, ⟨sound.log.reported, fun other => nomatch other⟩, sound.collector,
      sound.chunks⟩
  | inspect =>
    simp only [Paging.next] at taken
    split at taken <;> cases taken
    rename_i described
    exact sound.inspect known active described contained
  | measure =>
    cases asked : first.call with
    | asked request collecting descriptor => exact sound.measure asked taken
    | _ => simp [Paging.next, asked] at taken
  | read =>
    simp only [Paging.next] at taken
    split at taken <;> cases taken
    rename_i measured
    exact sound.read measured contained

def sampleRegistry : RunRegistry where
  gate := .default
  runs := [newRun Verified.sampleCommitted.registry sampleTicket Verified.sampleObservation
    (initialLog sampleTicket) 0]
  retired := []
  active := (∅ : BTreeMap Active).insert "run"
    { plan := sampleTicket.plan, shell := sampleTicket.plan.shell, lease := none, runUse := true,
      finishing := false, resultSnapshot := none, eventsSnapshot := none }
  pendingStarts := []
  durable := []

end Paging

end Idk
