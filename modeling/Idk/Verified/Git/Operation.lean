import Idk.Git.Tick

/-!
# What the functions of an operation change

`Quiet` is a change of screens, errors and observations only; `Kept` is one that leaves
the operation the same piece of work.  Every function of an operation is described by
one of them, by what it adds to it, and by when it ends the operation.
-/

namespace Idk.Git

open Idk.Host

/-- What identifies an operation. -/
structure Kept (before after : Operation) : Prop where
  id : after.info.id = before.info.id
  contextId : after.info.contextId = before.info.contextId
  projectId : after.info.projectId = before.info.projectId
  repository : after.info.repository = before.info.repository
  kind : after.info.kind = before.info.kind

/-- Only screens, errors and observations differ. -/
structure Quiet (before after : Operation) : Prop extends Kept before after where
  state : after.info.state = before.info.state
  acknowledged : after.info.cleanupAcknowledged = before.info.cleanupAcknowledged
  owner : after.info.owner = before.info.owner
  epoch : after.info.inputEpoch = before.info.inputEpoch
  result : after.info.result = before.info.result
  finishedAt : after.finishedAt = before.finishedAt
  terminal : after.terminal = before.terminal
  completion : after.completion = before.completion
  cancelled : after.cancelled = before.cancelled
  executed : after.executed = before.executed
  cleanupDone : after.cleanupDone = before.cleanupDone

/-- The same piece of work, which is over if it was. -/
structure Sustained (before after : Operation) : Prop extends Kept before after where
  finishedAt : after.finishedAt = before.finishedAt

/-- The same piece of work with the same process, which is complete or over only if it
    was. -/
structure Steady (before after : Operation) : Prop extends Sustained before after where
  acknowledged : after.info.cleanupAcknowledged = before.info.cleanupAcknowledged
  terminal : after.terminal = before.terminal
  completion : after.completion = before.completion
  executed : after.executed = before.executed
  ended : before.active = false → after.info.state = before.info.state
  complete : after.info.state = .complete → before.info.state = .complete

/-- What a request does to an operation: nothing is learnt about its process. -/
structure Requested (before after : Operation) : Prop extends Steady before after where
  exit : after.exit = before.exit
  cleanupDone : after.cleanupDone = before.cleanupDone

theorem Kept.refl (operation : Operation) : Kept operation operation := ⟨rfl, rfl, rfl, rfl, rfl⟩

theorem Quiet.refl (operation : Operation) : Quiet operation operation := by
  constructor <;> first | exact Kept.refl operation | rfl

theorem Kept.trans {first second third : Operation} (one : Kept first second)
    (two : Kept second third) : Kept first third :=
  ⟨two.id.trans one.id, two.contextId.trans one.contextId, two.projectId.trans one.projectId,
    two.repository.trans one.repository, two.kind.trans one.kind⟩

theorem Quiet.trans {first second third : Operation} (one : Quiet first second)
    (two : Quiet second third) : Quiet first third where
  toKept := one.toKept.trans two.toKept
  state := two.state.trans one.state
  acknowledged := two.acknowledged.trans one.acknowledged
  owner := two.owner.trans one.owner
  epoch := two.epoch.trans one.epoch
  result := two.result.trans one.result
  finishedAt := two.finishedAt.trans one.finishedAt
  terminal := two.terminal.trans one.terminal
  completion := two.completion.trans one.completion
  cancelled := two.cancelled.trans one.cancelled
  executed := two.executed.trans one.executed
  cleanupDone := two.cleanupDone.trans one.cleanupDone

theorem Sustained.refl (operation : Operation) : Sustained operation operation :=
  ⟨.refl operation, rfl⟩

theorem Sustained.trans {first second third : Operation} (one : Sustained first second)
    (two : Sustained second third) : Sustained first third :=
  ⟨one.toKept.trans two.toKept, two.finishedAt.trans one.finishedAt⟩

theorem Quiet.sustained {before after : Operation} (quiet : Quiet before after) :
    Sustained before after :=
  ⟨quiet.toKept, quiet.finishedAt⟩

theorem Quiet.steady {before after : Operation} (quiet : Quiet before after) :
    Steady before after where
  toSustained := quiet.sustained
  acknowledged := quiet.acknowledged
  terminal := quiet.terminal
  completion := quiet.completion
  executed := quiet.executed
  ended _ := quiet.state
  complete same := quiet.state ▸ same

theorem Steady.refl (operation : Operation) : Steady operation operation :=
  (Quiet.refl operation).steady

theorem Steady.trans {first second third : Operation} (one : Steady first second)
    (two : Steady second third) : Steady first third where
  toSustained := one.toSustained.trans two.toSustained
  acknowledged := two.acknowledged.trans one.acknowledged
  terminal := two.terminal.trans one.terminal
  completion := two.completion.trans one.completion
  executed := two.executed.trans one.executed
  ended past := (two.ended (by
    simpa [Operation.active, one.finishedAt] using past)).trans (one.ended past)
  complete same := one.complete (two.complete same)

theorem Requested.refl (operation : Operation) : Requested operation operation :=
  ⟨.refl operation, rfl, rfl⟩

theorem Sustained.active {before after : Operation} (sustained : Sustained before after) :
    after.active = before.active := by
  simp [Operation.active, sustained.finishedAt]

section Functions

variable (operation : Operation)

theorem noted_quiet (message : String) : Quiet operation (operation.noted message) := by
  constructor <;> first | exact ⟨rfl, rfl, rfl, rfl, rfl⟩ | rfl

theorem noted_requested (message : String) : Requested operation (operation.noted message) :=
  ⟨(noted_quiet operation message).steady, rfl, rfl⟩

theorem notice_quiet (message : String) : Quiet operation (operation.notice message) := by
  unfold Operation.notice
  split
  · constructor <;> first | exact ⟨rfl, rfl, rfl, rfl, rfl⟩ | rfl
  · exact .refl operation

theorem notice_watch (message : String) :
    (operation.notice message).exit = operation.exit ∧
      (operation.notice message).cleanupDone = operation.cleanupDone := by
  unfold Operation.notice
  split <;> exact ⟨rfl, rfl⟩

theorem refresh_quiet (status : Result TerminalStatus) :
    Quiet operation (operation.refresh status) := by
  unfold Operation.refresh
  split
  · cases status with
    | ok status => constructor <;> first | exact ⟨rfl, rfl, rfl, rfl, rfl⟩ | rfl
    | error error => exact .refl operation
  · exact .refl operation

theorem observe_quiet (now : Nat) (exit : TerminalExit) :
    Quiet operation (operation.observe now exit) := by
  unfold Operation.observe
  split
  · constructor <;> first | exact ⟨rfl, rfl, rfl, rfl, rfl⟩ | rfl
  · exact .refl operation

theorem frozen_quiet (answers : Operation.TickAnswers) :
    Quiet operation (match answers.snapshot with
      | .ok screen => { operation with frozen := some screen, info.generation := screen.generation }
      | .error _ => operation) := by
  cases answers.snapshot with
  | ok screen => constructor <;> first | exact ⟨rfl, rfl, rfl, rfl, rfl⟩ | rfl
  | error error => exact .refl operation

theorem freeze_quiet (answers : Operation.TickAnswers) :
    Quiet operation (operation.freeze answers) := by
  -- Whatever the end of the collection has noted, the screen is the last change.
  have frozen (noted : Operation) (quiet : Quiet operation noted) :=
    quiet.trans (frozen_quiet noted answers)
  unfold Operation.freeze
  split
  · refine frozen _ ?_
    split
    · exact noted_quiet operation _
    · exact .refl operation
  · exact .refl operation

theorem install_quiet (pid : Pid) (close : Result Unit) :
    Quiet (operation.installed pid) (operation.install pid close) := by
  unfold Operation.install
  split
  · exact notice_quiet _ _
  · exact .refl _

theorem install_kept (pid : Pid) (close : Result Unit) :
    Kept operation (operation.install pid close) := by
  have taken : Kept operation (operation.installed pid) := ⟨rfl, rfl, rfl, rfl, rfl⟩
  exact taken.trans (install_quiet operation pid close).toKept

theorem install_sustained (pid : Pid) (close : Result Unit) :
    Sustained operation (operation.install pid close) :=
  ⟨install_kept operation pid close, (install_quiet operation pid close).finishedAt⟩

theorem install_exit (pid : Pid) (close : Result Unit) :
    (operation.install pid close).exit = operation.exit := by
  unfold Operation.install
  split
  · exact (notice_watch (operation.installed pid) _).1
  · rfl

theorem reconciled_sustained : Sustained operation (reconciled operation) :=
  ⟨⟨rfl, rfl, rfl, rfl, rfl⟩, rfl⟩

theorem forgetScreen_requested : Requested operation operation.forgetScreen := by
  unfold Operation.forgetScreen
  split
  · exact .refl operation
  · exact ⟨⟨⟨⟨rfl, rfl, rfl, rfl, rfl⟩, rfl⟩, rfl, rfl, rfl, rfl, fun _ => rfl, id⟩, rfl, rfl⟩

theorem inventory_steady (host : Pid) (answer : Pid → ChildAnswer) (report : Report) :
    Steady operation (operation.inventory host answer report) := by
  unfold Operation.inventory
  split
  · exact .refl operation
  · split
    · -- the visits are recorded first, the notice comes on top of them
      have visited : ∀ (signalled : List (Pid × Bool)) (done : Bool), Steady operation
          { operation with signalled := signalled, cleanupDone := done } :=
        fun _ _ => ⟨⟨⟨rfl, rfl, rfl, rfl, rfl⟩, rfl⟩, rfl, rfl, rfl, rfl, fun _ => rfl, id⟩
      dsimp only
      split
      · exact (visited _ _).trans (notice_quiet _ _).steady
      · split
        · exact (visited _ _).trans (notice_quiet _ _).steady
        · exact visited _ _
    · exact .refl operation

/-- Each process that is visited is counted. -/
theorem visits_found (host : Pid) (answer : Pid → ChildAnswer) (processes : List Process)
    (start : Operation.Visit) :
    (processes.foldl (operation.visit host answer) start).found =
      start.found + processes.length := by
  induction processes generalizing start with
  | nil => rfl
  | cons process rest inductionHypothesis =>
    have counted : (operation.visit host answer start process).found = start.found + 1 := by
      unfold Operation.visit
      dsimp only
      split
      · rfl
      · split
        · rfl
        · split <;> rfl
        · split
          · split <;> rfl
          · rfl
    rw [List.foldl_cons, inductionHypothesis, counted, List.length_cons]
    omega

theorem anchor_some {anchor : Anchor} (known : operation.anchor = some anchor) :
    ∃ pid, operation.terminal = some pid ∧ operation.exit.isSome = true ∧
      anchor = ⟨operation.info.id, pid⟩ := by
  unfold Operation.anchor at known
  split at known
  · cases known
  · rename_i watched
    simp only [Bool.or_eq_true, not_or, Bool.not_eq_true, Option.isNone_eq_false_iff] at watched
    obtain ⟨pid, terminal, rfl⟩ := Option.map_eq_some_iff.mp known
    exact ⟨pid, terminal, watched.1, rfl⟩

/-- An inventory learns nothing of the exit, and ends the cleanup only when it is about the
    exited leader and finds nothing left. -/
theorem inventory_watch (host : Pid) (answer : Pid → ChildAnswer) (report : Report) :
    (operation.inventory host answer report).exit = operation.exit ∧
      ((operation.inventory host answer report).cleanupDone = true →
        operation.cleanupDone = true ∨
        ∃ pid, operation.terminal = some pid ∧ operation.exit.isSome = true ∧
          report.Empty ⟨operation.info.id, pid⟩) := by
  unfold Operation.inventory
  split
  · exact ⟨rfl, .inl⟩
  · rename_i anchor known
    split
    · rename_i listed
      have counted := visits_found operation host answer
        (report.processes.filter (·.session == anchor.pid)) ⟨0, report.error, operation.signalled⟩
      have empty : ∀ visited : Operation.Visit, visited =
          (report.processes.filter (·.session == anchor.pid)).foldl (operation.visit host answer)
            ⟨0, report.error, operation.signalled⟩ →
          (report.complete && visited.failure.isNone && visited.found == 0) = true →
          report.Empty anchor := by
        rintro _ rfl done
        simp only [Bool.and_eq_true, beq_iff_eq, Option.isNone_iff_eq_none] at done
        obtain ⟨⟨complete, failure⟩, none⟩ := done
        have nothing : report.processes.filter (·.session == anchor.pid) = [] := by
          apply List.eq_nil_of_length_eq_zero
          omega
        rw [nothing] at failure
        refine ⟨listed, complete, failure, fun process member same => ?_⟩
        simpa [same] using List.filter_eq_nil_iff.mp nothing process member
      obtain ⟨pid, terminal, seen, rfl⟩ := anchor_some operation known
      dsimp only
      generalize same : (report.processes.filter (·.session == pid)).foldl
        (operation.visit host answer) ⟨0, report.error, operation.signalled⟩ = visited
      have found := empty visited same.symm
      -- a notice on top of the visits changes nothing of this
      split
      · rw [(notice_watch _ _).1, (notice_watch _ _).2]
        exact ⟨rfl, fun done => .inr ⟨pid, terminal, seen, found done⟩⟩
      · split
        · rw [(notice_watch _ _).1, (notice_watch _ _).2]
          exact ⟨rfl, fun done => .inr ⟨pid, terminal, seen, found done⟩⟩
        · exact ⟨rfl, fun done => .inr ⟨pid, terminal, seen, found done⟩⟩
    · exact ⟨rfl, .inl⟩

theorem cancel_requested (client : String) (epoch : Nat) (force : Bool) (close : Result Unit) :
    Requested operation (operation.cancel client epoch force close).1 := by
  unfold Operation.cancel
  split
  · rename_i active
    split
    · exact .refl operation
    · exact ⟨⟨⟨⟨rfl, rfl, rfl, rfl, rfl⟩, rfl⟩, rfl, rfl, rfl, rfl,
        fun past => by simp [active] at past, nofun⟩, rfl, rfl⟩
  · exact .refl operation

theorem finish_kept (now : Nat) (result : Result OperationResult) :
    Kept operation (operation.finish now result) := by
  unfold Operation.finish
  split
  · exact ⟨rfl, rfl, rfl, rfl, rfl⟩
  · cases result <;> exact ⟨rfl, rfl, rfl, rfl, rfl⟩

/-- The process and what is known of it stay as they are. -/
theorem finish_process (now : Nat) (result : Result OperationResult) :
    (operation.finish now result).terminal = operation.terminal ∧
      (operation.finish now result).completion = operation.completion ∧
      (operation.finish now result).exit = operation.exit ∧
      (operation.finish now result).cleanupDone = operation.cleanupDone := by
  unfold Operation.finish
  split
  · exact ⟨rfl, rfl, rfl, rfl⟩
  · cases result <;> exact ⟨rfl, rfl, rfl, rfl⟩

theorem abandoned_kept (now : Nat) : Kept operation (operation.abandoned now) := by
  unfold Operation.abandoned
  split
  · exact finish_kept operation now _
  · split
    · exact finish_kept operation now _
    · exact .refl operation

end Functions

/-! ## Ownership -/

theorem advance_ok {operation after : Operation} (advanced : operation.advance = .ok after) :
    after = { operation with info.inputEpoch := operation.info.inputEpoch + 1 } := by
  obtain ⟨epoch, next, same⟩ := bind_eq_ok.mp advanced
  simp only [context_eq_ok, checkedSucc] at next
  split at next
  · obtain rfl := Option.some.inj next
    exact (Except.ok.inj same).symm
  · simp at next

/-- What `attach` does when it succeeds. -/
inductive Attached (client : String) (operation : Operation) : Operation → Prop where
  | ended (past : operation.active = false) : Attached client operation operation
  | again (own : operation.info.owner = some client) : Attached client operation operation
  | granted (active : operation.active = true) (other : operation.info.owner ≠ some client) :
      Attached client operation { operation with
        info.inputEpoch := operation.info.inputEpoch + 1
        info.owner := some client }

theorem attach_cases {operation after : Operation} {client : String} {takeover : Bool}
    (attached : operation.attach client takeover = .ok after) :
    Attached client operation after := by
  unfold Operation.attach at attached
  split at attached
  · rename_i active
    obtain ⟨_, _, attached⟩ := bind_eq_ok.mp attached
    split at attached
    · obtain rfl := Except.ok.inj attached
      exact .again ‹_›
    · obtain ⟨advanced, next, same⟩ := bind_eq_ok.mp attached
      obtain rfl := advance_ok next
      obtain rfl := Except.ok.inj same
      exact .granted active ‹_›
  · rename_i past
    obtain rfl := Except.ok.inj attached
    exact .ended (by simpa using past)

/-- What `detach` does when it succeeds. -/
inductive Detached (client : String) (epoch : Nat) (operation : Operation) : Operation → Prop where
  | ended (past : operation.active = false) : Detached client epoch operation operation
  | released (own : operation.info.owner = some client) (same : operation.info.inputEpoch = epoch) :
      Detached client epoch operation { operation with
        info.inputEpoch := operation.info.inputEpoch + 1
        info.owner := none }

theorem owner_ok {operation : Operation} {client : String} {epoch : Nat} {done : Unit} :
    operation.owner client epoch = .ok done ↔
      operation.info.owner = some client ∧ operation.info.inputEpoch = epoch := by
  simp [Operation.owner]

theorem detach_cases {operation after : Operation} {client : String} {epoch : Nat}
    (detached : operation.detach client epoch = .ok after) :
    Detached client epoch operation after := by
  unfold Operation.detach at detached
  split at detached
  · obtain ⟨_, owns, detached⟩ := bind_eq_ok.mp detached
    obtain ⟨advanced, next, same⟩ := bind_eq_ok.mp detached
    obtain rfl := advance_ok next
    obtain rfl := Except.ok.inj same
    exact .released (owner_ok.mp owns).1 (owner_ok.mp owns).2
  · rename_i past
    obtain rfl := Except.ok.inj detached
    exact .ended (by simpa using past)

theorem attach_requested {operation after : Operation} {client : String} {takeover : Bool}
    (attached : operation.attach client takeover = .ok after) : Requested operation after := by
  cases attach_cases attached with
  | ended | again => exact .refl operation
  | granted =>
    exact ⟨⟨⟨⟨rfl, rfl, rfl, rfl, rfl⟩, rfl⟩, rfl, rfl, rfl, rfl, fun _ => rfl, id⟩, rfl, rfl⟩

theorem detach_requested {operation after : Operation} {client : String} {epoch : Nat}
    (detached : operation.detach client epoch = .ok after) : Requested operation after := by
  cases detach_cases detached with
  | ended => exact .refl operation
  | released =>
    exact ⟨⟨⟨⟨rfl, rfl, rfl, rfl, rfl⟩, rfl⟩, rfl, rfl, rfl, rfl, fun _ => rfl, id⟩, rfl, rfl⟩

/-- Whether a tick reaps the leader. -/
def Operation.reaps (operation : Operation) (answers : Operation.TickAnswers) : Bool :=
  operation.terminal.isSome &&
    match answers.observed, answers.reapExit with
    | .ok (some exit), .ok _ =>
      (((operation.refresh answers.status).observe answers.now exit).freeze answers).reapable
        answers.now
    | _, _ => false

/-- One tick changes nothing of importance, or reaps the leader of a session that an
    inventory has found empty. -/
inductive Ticked (operation : Operation) (answers : Operation.TickAnswers) (receiver : Bool) :
    Operation × Option CommandOutcome → Prop where
  | quiet (after : Operation) (quiet : Quiet operation after) :
      Ticked operation answers receiver (after, none)
  | reaped (pid : Pid) (seen exit : TerminalExit) (settled : Operation)
      (terminal : operation.terminal = some pid) (cleanup : operation.cleanupDone = true)
      (observed : answers.observed = .ok (some seen)) (reaped : answers.reapExit = .ok exit)
      (reaps : Operation.reaps operation answers = true) (quiet : Quiet operation settled) :
      Ticked operation answers receiver (settled.reapedWith answers.now receiver,
        if operation.completion && receiver then some (settled.outcome exit) else none)

theorem tick_cases (operation : Operation) (answers : Operation.TickAnswers) (receiver : Bool) :
    Ticked operation answers receiver (operation.tick answers receiver) := by
  unfold Operation.tick
  cases terminal : operation.terminal with
  | none => exact .quiet operation (.refl operation)
  | some pid =>
    simp only [Option.isNone_some, Bool.false_eq_true, if_false]
    have fresh := refresh_quiet operation answers.status
    cases observed : answers.observed with
    | error error => exact .quiet _ (fresh.trans (noted_quiet _ _))
    | ok exit =>
      cases exit with
      | none => exact .quiet _ fresh
      | some seen =>
        have quiet := (fresh.trans (observe_quiet _ answers.now seen)).trans (freeze_quiet _ answers)
        dsimp only [Operation.settle]
        split
        · rename_i reapable
          have cleanup : operation.cleanupDone = true := by
            simp only [Operation.reapable, Bool.and_eq_true] at reapable
            exact quiet.cleanupDone ▸ reapable.1
          cases reaped : answers.reapExit with
          | error error => exact .quiet _ (quiet.trans (noted_quiet _ _))
          | ok exit =>
            have reaps : Operation.reaps operation answers = true := by
              simp [Operation.reaps, terminal, observed, reaped, reapable]
            simp only [quiet.completion]
            exact .reaped pid seen exit _ terminal cleanup observed reaped reaps quiet
        · exact .quiet _ quiet

/-- An exit is known only once it has been observed. -/
theorem tick_exit {operation : Operation} {answers : Operation.TickAnswers} {receiver : Bool}
    (known : (operation.tick answers receiver).1.exit.isSome = true) :
    operation.exit.isSome = true ∨
      operation.terminal.isSome = true ∧ ∃ seen, answers.observed = .ok (some seen) := by
  unfold Operation.tick at known
  have fresh : (operation.refresh answers.status).exit = operation.exit := by
    unfold Operation.refresh
    split
    · split <;> rfl
    · rfl
  cases terminal : operation.terminal with
  | none =>
    simp only [terminal, Option.isNone_none, if_true] at known
    exact .inl known
  | some pid =>
    simp only [terminal, Option.isNone_some, Bool.false_eq_true, if_false] at known
    cases observed : answers.observed with
    | error error => exact .inl (by simpa [observed, fresh] using known)
    | ok exit =>
      cases exit with
      | none => exact .inl (by simpa [observed, fresh] using known)
      | some seen => exact .inr ⟨rfl, seen, rfl⟩

/-- While the executor waits, or none ever did, the operation goes on. -/
theorem reapedWith_sustained {operation settled : Operation} {now : Nat} {receiver : Bool}
    (quiet : Quiet operation settled)
    (attended : ¬ (operation.completion = true ∧ receiver = false)) :
    Sustained operation (settled.reapedWith now receiver) := by
  have waits : (settled.completion && !receiver) = false := by
    rw [quiet.completion]
    simpa using attended
  simp only [Operation.reapedWith, waits, Bool.false_eq_true, if_false]
  exact quiet.sustained.trans ⟨⟨rfl, rfl, rfl, rfl, rfl⟩, rfl⟩

end Idk.Git
