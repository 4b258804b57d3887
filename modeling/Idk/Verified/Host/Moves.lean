import Idk.Verified.Host.Ground

/-!
# Requests are sequences of changes

Each procedure is walked once.  What it did before it returned or failed is a sequence of
changes from the state it started in, so that it keeps whatever the changes keep.

**Main result:** `execute_moves`.
-/

namespace Idk.Host

open Idk.Logic
open Idk.Logic.Procedure (Ensures)
open Relation (ReflTransGen)
open Actor

variable (isUuid : IsUuid) (scope : Scope)

/-- What the outside answers while a procedure runs that started in `origin`. -/
structure Scope.Covers (origin : Actor) (answers : Nat → HostAnswers) : Prop where
  loads : origin.Loads isUuid answers
  reaps : ∀ asked session exit, ((answers asked).ticks session).reapExit = .ok exit →
    scope.reaps session

/-- The state is reached from `origin` by changes. -/
abbrev Reached (origin : Actor) : Actor → Prop := ReflTransGen (Change isUuid scope) origin

/-- The state is reached from `origin` by starting terminals. -/
abbrev Opens (origin : Actor) : Actor → Prop := ReflTransGen (Opening isUuid scope) origin

variable {isUuid scope} {answers : Nat → HostAnswers} {origin actor after : Actor}

theorem Opens.reached (opens : Opens isUuid scope actor after)
    (reached : Reached isUuid scope origin actor) : Reached isUuid scope origin after :=
  reached.trans (ReflTransGen.mono (fun _ _ opening => .opening opening) _ _ opens)

theorem later_of_reached (reached : Reached isUuid scope origin actor) : origin.Later actor := by
  induction reached with
  | refl => exact .refl origin
  | tail _ change inductionHypothesis => exact inductionHypothesis.trans change.later

/-! ## Changes of slots -/

theorem slotsMove_of {slots : BTreeMap Slot}
    (each : ∀ key : String, slots[key]? = actor.slots[key]? ∨ ∃ slot last,
      actor.slots[key]? = some slot ∧ slots[key]? = some last ∧
        ReflTransGen (Slot.Step isUuid scope actor key) slot last) :
    SlotsMove isUuid scope actor slots := by
  intro key
  rcases each key with same | ⟨slot, last, found, now, moves⟩
  · rw [same]
    cases actor.slots[key]? with
    | none => exact .none
    | some slot => exact .some .refl
  · rw [found, now]
    exact .some moves

/-- A slot goes through steps. -/
theorem slots_set {session : String} {slot last : Slot}
    (found : actor.slots[session]? = some slot)
    (moves : ReflTransGen (Slot.Step isUuid scope actor session) slot last) :
    Change isUuid scope actor (setSlot session last actor) := by
  refine .slots (slotsMove_of fun key => ?_)
  rw [insert_get]
  split
  · rename_i same
    exact .inr ⟨slot, last, same ▸ found, rfl, same ▸ moves⟩
  · exact .inl rfl

theorem slots_modified {session : String} {change : Slot → Slot}
    (moves : ∀ slot, actor.slots[session]? = some slot →
      ReflTransGen (Slot.Step isUuid scope actor session) slot (change slot)) :
    Change isUuid scope actor (modifySlot session change actor) := by
  refine .slots (slotsMove_of fun key => ?_)
  rw [modify_get]
  split
  · rename_i same
    subst same
    cases found : actor.slots[session]? with
    | none => exact .inl rfl
    | some slot => exact .inr ⟨slot, change slot, rfl, rfl, moves slot found⟩
  · exact .inl rfl

theorem slots_noted {session error : String} :
    Change isUuid scope actor (modifySlot session (·.withError error) actor) :=
  slots_modified fun _ _ => .single .noted

/-- Every slot that meets a condition. -/
theorem slots_mapped {change : String → Slot → Slot}
    (moves : ∀ (key : String) (slot : Slot), actor.slots[key]? = some slot →
      ReflTransGen (Slot.Step isUuid scope actor key) slot (change key slot)) :
    Change isUuid scope actor { actor with slots := actor.slots.map change } := by
  refine .slots (slotsMove_of fun key => ?_)
  rw [Std.TreeMap.getElem?_map]
  cases found : actor.slots[key]? with
  | none => exact .inl rfl
  | some slot => exact .inr ⟨slot, change key slot, rfl, rfl, moves key slot found⟩

theorem modifySlot_get (session key : String) (change : Slot → Slot) (actor : Actor) :
    (modifySlot session change actor).slots[key]? =
      if session = key then actor.slots[key]?.map change else actor.slots[key]? :=
  modify_get actor.slots session key change

/-! ## Small steps -/

theorem slotOf_ends (session : String) (actor : Actor) :
    Ensures answers (· = actor) (slotOf session)
      (fun slot last => last = actor ∧ actor.slots[session]? = some slot) (· = actor) :=
  .thenRead (.checked rfl fun _ found => ⟨rfl, context_eq_ok.mp found⟩)

theorem now_ends (actor : Actor) :
    Ensures answers (· = actor) now (fun _ last => last = actor) (fun _ => False) :=
  .thenAsk fun _ => .done rfl

theorem newId_ends (actor : Actor) :
    Ensures answers (· = actor) newId
      (fun id last => id = actor.ids actor.nextId ∧ last = { actor with nextId := actor.nextId + 1 })
      (fun _ => False) :=
  .thenRead (.thenUpdate (.done ⟨rfl, rfl⟩))

theorem persist_ends (actor : Actor) :
    Ensures answers (· = actor) (persist isUuid)
      (fun _ last => last = actor.record (.persisted actor.ledger))
      (· = actor.record (.persisted actor.ledger)) :=
  .thenRead (.thenUpdate (.thenCheck rfl fun _ _ => .thenAsk fun _ => .checked rfl fun _ _ => rfl))

theorem sendWork_ends (work : Work) (full : String) (actor : Actor) :
    Ensures answers (· = actor) (sendWork work full)
      (fun _ last => last = { actor with runs := actor.runs.give work } ∧
        actor.runs.alive = true) (· = actor) := by
  refine .thenRead (.thenCheck rfl fun _ _ => .thenAsk fun _ => .thenCheck rfl fun _ sent => ?_)
  have alive := ensure_eq_ok.mp sent
  simp only [Bool.and_eq_true] at alive
  exact .updated ⟨rfl, alive.2⟩

/-! ### From one known state to the next -/

section Known

variable {α : Type} {post : α → Actor → Prop} {failed : Actor → Prop}

theorem thenSlot {session : String} {slot : Slot} {next : Slot → Act α}
    (found : actor.slots[session]? = some slot)
    (rest : Ensures answers (· = actor) (next slot) post failed) :
    Ensures answers (· = actor) (slotOf session >>= next) post failed := by
  rintro asked _ rfl
  simp only [slotOf, Procedure.current, Bind.bind, found, context]
  exact rest asked _ rfl

theorem thenLook {session : String} {next : Slot → Act α} (missing : failed actor)
    (rest : ∀ slot, actor.slots[session]? = some slot →
      Ensures answers (· = actor) (next slot) post failed) :
    Ensures answers (· = actor) (slotOf session >>= next) post failed := by
  refine .thenCall ((slotOf_ends session actor).relax fun _ same => same ▸ missing) rfl ?_
  rintro slot _ ⟨rfl, found⟩
  exact rest slot found

theorem thenNow {next : Nat → Act α}
    (rest : ∀ now, Ensures answers (· = actor) (next now) post failed) :
    Ensures answers (· = actor) (now >>= next) post failed :=
  .thenCall ((now_ends actor).relax fun _ => False.elim) rfl fun now _ same => same ▸ rest now

theorem thenPersist {next : Except String Unit → Act α}
    (rest : ∀ outcome, Ensures answers (· = actor.record (.persisted actor.ledger))
      (next outcome) post failed) :
    Ensures answers (· = actor) (Procedure.attempt (persist isUuid) >>= next) post failed := by
  refine .thenAttempt (persist_ends actor) rfl ?_ ?_
  · rintro _ _ rfl
    exact rest _
  · rintro _ _ rfl
    exact rest _

end Known

/-- The request to close is noted. -/
theorem noteRequest_ends {session : String} {slot : Slot} (force : Bool)
    (found : actor.slots[session]? = some slot) :
    Ensures answers (· = actor) (noteRequest session force)
      (fun _ last => ∃ now, last = modifySlot session (·.requested force now)
        (storeCancel slot.cancel actor)) (fun _ => False) :=
  thenSlot found (.thenUpdate (thenNow fun now => .updated ⟨now, rfl⟩))

section Moves

theorem persist_moves : Ensures answers (Reached isUuid scope origin) (persist isUuid)
    (fun _ => Reached isUuid scope origin) (Reached isUuid scope origin) := by
  refine .known fun actor reached => (persist_ends actor).consequence (fun _ => id) ?_ ?_
  · rintro _ _ rfl
    exact reached.tail (.opening .saved)
  · rintro _ rfl
    exact reached.tail (.opening .saved)

/-- A procedure whose failure does not matter. -/
theorem attempt_moves {α : Type} {op : Act α}
    (moves : Ensures answers (Reached isUuid scope origin) op (fun _ => Reached isUuid scope origin)
      (Reached isUuid scope origin)) {failed : Actor → Prop} :
    Ensures answers (Reached isUuid scope origin) (Procedure.attempt op)
      (fun _ => Reached isUuid scope origin) failed := by
  refine moves.attempt.consequence (fun _ => id) (fun outcome _ holds => ?_) (fun _ => id)
  cases outcome <;> exact holds

theorem cancelRun_moves (runId : String) (force : Bool) :
    Ensures answers (Reached isUuid scope origin) (cancelRun runId force)
      (fun _ => Reached isUuid scope origin) (Reached isUuid scope origin) := by
  refine .known fun actor reached => (sendWork_ends _ _ actor).consequence (fun _ => id) ?_ ?_
  · rintro _ _ ⟨rfl, alive⟩
    exact reached.tail (.gave .cancel alive)
  · rintro _ rfl
    exact reached

/-! ## Closing -/

/-- A close of the session may be asked of the PTY host. -/
def MayClose (scope : Scope) (session : String) (actor : Actor) : Prop :=
  ∀ slot, actor.slots[session]? = some slot →
    slot.mayClose actor.runsDead = true ∨ slot.purpose.runId = none ∨ scope.unwritten session

theorem hostClose_moves (session : String) :
    Ensures answers (fun actor => Reached isUuid scope origin actor ∧ MayClose scope session actor)
      (hostClose session) (fun _ => Reached isUuid scope origin) (Reached isUuid scope origin) := by
  refine .known fun actor ⟨reached, may⟩ => thenLook reached fun slot found => ?_
  refine .thenRead (.thenUpdate (.thenAsk fun asked => .done ?_))
  exact reached.tail (.signalled found (may slot found))

/-- A live session that is not waiting for the cancellation of its run may be closed. -/
theorem mayClose_of_none {slot : Slot} {runsDead : Bool} (none_ : slot.runToCancel runsDead = none)
    (live : slot.isLive = true) : slot.mayClose runsDead = true ∨ slot.purpose.runId = none := by
  unfold Slot.runToCancel at none_
  split at none_
  · exact .inr none_
  · rename_i settled
    refine .inl ?_
    simp only [live, Bool.and_true, Bool.and_eq_true, Bool.not_eq_true'] at settled
    cases durable : slot.runCancelDurable <;> cases runsDead <;>
      simp_all [Slot.mayClose]

/-- The close of a live session is noted. -/
theorem noted_request {session : String} {slot : Slot} (found : actor.slots[session]? = some slot)
    (live : slot.isLive = true) (reached : Reached isUuid scope origin actor) (force : Bool)
    (now : Nat) : Reached isUuid scope origin
      (modifySlot session (·.requested force now) (storeCancel slot.cancel actor)) := by
  have celled : Reached isUuid scope origin (storeCancel slot.cancel actor) :=
    reached.tail (.cells (List.subset_cons_self _ _))
  refine celled.tail (slots_modified fun other there => ?_)
  obtain rfl := Option.some.inj (found.symm.trans there)
  exact .single (.requested live)

theorem requestClose_moves (session : String) (force : Bool) :
    Ensures answers (Reached isUuid scope origin) (requestClose session force)
      (fun _ => Reached isUuid scope origin) (Reached isUuid scope origin) := by
  refine .known fun actor reached => thenLook reached fun slot found => .thenRead ?_
  cases waits : slot.runToCancel actor.runsDead with
  | some runId =>
    have live : slot.isLive = true := by
      unfold Slot.runToCancel at waits
      split at waits
      · simp_all
      · cases waits
    dsimp only
    refine .branch (fun _ => ?_) fun _ => ?_
    · refine .thenCall ((sendWork_ends _ _ actor).relax fun _ same => same ▸ reached) rfl ?_
      rintro _ _ ⟨rfl, alive⟩
      refine .thenUpdate ?_
      let pending (slot : Slot) : Slot := { slot with runCancelPending := true }
      have asked : Reached isUuid scope origin (modifySlot session pending
          { actor with runs := actor.runs.give (.cancel runId force) }) :=
        (reached.tail (.gave .cancel alive)).tail (slots_modified fun _ _ => .single .cancelAsked)
      have there : (modifySlot session pending { actor with
          runs := actor.runs.give (.cancel runId force) }).slots[session]? = some (pending slot) := by
        simp [modifySlot_get, found]
      refine .tail ((noteRequest_ends force there).consequence (fun _ => id) ?_ fun _ => False.elim) rfl
      rintro _ _ ⟨now, rfl⟩
      exact noted_request there live asked force now
    · refine .tail ((noteRequest_ends force found).consequence (fun _ => id) ?_ fun _ => False.elim) rfl
      rintro _ _ ⟨now, rfl⟩
      exact noted_request found live reached force now
  | none =>
    dsimp only
    refine .branch (fun live => ?_) fun _ => .done reached
    refine .thenCall ((noteRequest_ends force found).relax fun _ => False.elim) rfl ?_
    rintro _ _ ⟨now, rfl⟩
    have noted := noted_request found live reached force now
    refine .branch (fun _ => ?_) fun _ => .done noted
    refine .thenCall (hostClose_moves session) ⟨noted, fun other there => ?_⟩ ?_
    · -- the request changes nothing that says whether the session may be closed
      rw [modifySlot_get, if_pos rfl] at there
      obtain ⟨before, known, rfl⟩ := Option.map_eq_some_iff.mp there
      obtain rfl := Option.some.inj (found.symm.trans known)
      exact (mayClose_of_none waits live).imp_right .inl
    · intro outcome last closed
      cases outcome with
      | ok done => exact .done closed
      | error error =>
        exact .thenUpdate (.failing (closed.tail slots_noted))

theorem closeOne_moves (session : String) (force : Bool) :
    Ensures answers (Reached isUuid scope origin) (closeOne isUuid session force)
      (fun _ => Reached isUuid scope origin) (Reached isUuid scope origin) := by
  refine (attempt_moves (requestClose_moves session force)).bind fun signalled => ?_
  refine .known fun actor reached => thenPersist fun outcome => ?_
  have saved := reached.tail (.opening .saved)
  cases outcome with
  | ok done => exact .checked saved fun _ _ => saved
  | error error =>
    exact thenLook saved fun _ _ => .thenUpdate (.failing (saved.tail slots_noted))

theorem closeEach_moves (force : Bool) (errors : BTreeMap String) (sessions : List String) :
    Ensures answers (Reached isUuid scope origin) (closeEach force errors sessions)
      (fun _ => Reached isUuid scope origin) (Reached isUuid scope origin) := by
  induction sessions generalizing errors with
  | nil => exact .value fun _ reached => reached
  | cons session rest inductionHypothesis =>
    refine (attempt_moves (requestClose_moves session force)).bind fun outcome => ?_
    cases outcome <;> exact inductionHypothesis _

theorem cancelBatch_follows (batch : Batch) : batch.Follows (cancelBatch batch) true :=
  ⟨rfl, List.nil_subset _, .inl rfl⟩

theorem Batch.Follows.refl (batch : Batch) (quiescing : Bool) : batch.Follows batch quiescing :=
  ⟨rfl, List.Subset.refl _, .inl rfl⟩

theorem closeMany_moves (project : Option String) (sessions : List String) (force : Bool) :
    Ensures answers (Reached isUuid scope origin) (closeMany isUuid project sessions force)
      (fun _ => Reached isUuid scope origin) (Reached isUuid scope origin) := by
  refine .known fun actor reached => .thenRead (.thenCheck reached fun _ _ => ?_)
  refine .thenCheck reached fun _ _ => .thenUpdate ?_
  have closing : Reached isUuid scope origin { actor with
      batches := actor.batches.map fun _ batch =>
        if project.all (· == batch.info.projectId) then cancelBatch batch else batch
      quiescing := actor.quiescing || project.isNone } := by
    refine reached.tail (.closing (fun id batch found => ?_) fun closing => by simp [closing])
    rw [Std.TreeMap.getElem?_map] at found
    obtain ⟨before, there, rfl⟩ := Option.map_eq_some_iff.mp found
    refine ⟨before, there, ?_⟩
    split
    · exact cancelBatch_follows before
    · exact .refl before true
  refine .thenCall (closeEach_moves force ∅ _) closing fun errors _ reached => ?_
  refine thenPersist fun outcome => ?_
  have saved := reached.tail (.opening .saved)
  cases outcome with
  | ok done => exact .thenValue (.thenRead (.done saved))
  | error error =>
    have noted : Ensures answers (Reached isUuid scope origin)
        (noteUnsaved (((actor.targets project).map (·.sessionId)).mergeSort))
        (fun _ => Reached isUuid scope origin) (Reached isUuid scope origin) := by
      refine .update fun last reached => reached.tail (slots_mapped fun key slot _ => ?_)
      split
      · exact .single .noted
      · exact .refl
    exact .thenCall noted saved fun _ last reached => .thenValue (.thenRead (.done reached))

end Moves

/-! ## Starting terminals -/

theorem checkUnique_members {α : Type} {check : α → Result Unit} {id : α → String}
    {items : List α} {seen ids : List String}
    (checked : items.foldlM (Model.checkUnique check id) seen = .ok ids) :
    ∀ item ∈ items, check item = .ok () := by
  induction items generalizing seen with
  | nil => simp
  | cons head tail inductionHypothesis =>
    rw [List.foldlM_cons] at checked
    obtain ⟨more, first, rest⟩ := bind_eq_ok.mp checked
    obtain ⟨_, valid, _⟩ := bind_eq_ok.mp first
    intro item member
    cases member with
    | head => exact valid
    | tail _ member => exact inductionHypothesis rest item member

/-- The terminals of a valid project have ids. -/
theorem terminals_uuid {project : Model.Project} (valid : project.validate isUuid = .ok ()) :
    ∀ terminal ∈ project.terminals, isUuid terminal.id = true := by
  intro terminal member
  simp only [Model.Project.validate, bind_eq_ok] at valid
  obtain ⟨-, -, -, -, -, -, -, -, -, -, -, -, -, -, -, -, -, -, -, -, ids, checked, -⟩ := valid
  obtain ⟨_, id, _⟩ := bind_eq_ok.mp (checkUnique_members checked terminal member)
  exact ensure_eq_ok.mp id

/-- No session has the id that is drawn next. -/
theorem Ground.absent {begun : String → Option String} (ground : Ground isUuid begun actor) :
    actor.slots[actor.ids actor.nextId]? = none := by
  cases found : actor.slots[actor.ids actor.nextId]? with
  | none => rfl
  | some slot => exact absurd rfl (ground.foreign _ slot found).1.ne

theorem schedule_ends (job : LaunchJob) (actor : Actor) :
    Ensures answers (· = actor) (schedule isUuid job)
      (fun _ last => last = { actor.record (.persisted actor.ledger) with
        launching.jobs := actor.launching.jobs ++ [job] } ∧ actor.launching.alive = true)
      (· = actor.record (.persisted actor.ledger)) := by
  refine .thenCall (persist_ends actor) rfl ?_
  rintro _ _ rfl
  refine .thenRead (.thenAsk fun _ => .thenCheck rfl fun _ taken => ?_)
  have alive := ensure_eq_ok.mp taken
  simp only [Bool.and_eq_true] at alive
  exact .updated ⟨rfl, alive.2⟩

/-- The new session is made, or everything is as it was. -/
theorem startNew_opens (ground : Ground isUuid scope.begun actor) {project : String}
    {terminal : Model.TerminalDefinition} {previous : Option (String × Slot)}
    (known : ∀ id slot, previous = some (id, slot) → actor.slots[id]? = some slot)
    (starts : actor.occupied < maxTerminals →
      previous.isSome = true ∨ actor.slots.size < hostRecordLimit →
        actor.Starts isUuid scope project terminal (previous.map (·.1))) :
    Ensures answers (· = actor) (startNew isUuid project terminal previous)
      (fun _ => Opens isUuid scope actor) (Opens isUuid scope actor) := by
  refine .thenRead (.thenCheck .refl fun _ room => .thenCheck .refl fun _ tracked => ?_)
  replace starts := starts (by simpa using ensure_eq_ok.mp room)
    (by simpa using ensure_eq_ok.mp tracked)
  refine .thenCall ((newId_ends actor).relax fun _ => False.elim) rfl ?_
  rintro session _ ⟨rfl, rfl⟩
  have absent := ground.absent
  cases previous with
  | none =>
    refine .thenUpdate (.thenAttempt (schedule_ends _ _) rfl ?_ ?_)
    · rintro _ _ ⟨rfl, alive⟩
      exact .done (.single (.started starts alive))
    · rintro error _ rfl
      refine .thenUpdate (thenPersist fun _ => .failing ?_)
      refine .tail (.single (.startFailed starts fun key => ?_)) .saved
      simp only [record, setSlot, erase_get, insert_get]
      split
      · rename_i same
        exact same ▸ absent.symm
      · rfl
  | some previous =>
    obtain ⟨id, slot⟩ := previous
    refine .thenUpdate (.thenUpdate (.thenAttempt (schedule_ends _ _) rfl ?_ ?_))
    · rintro _ _ ⟨rfl, alive⟩
      exact .done (.single (.started starts alive))
    · rintro error _ rfl
      refine .thenUpdate (.thenUpdate (thenPersist fun _ => .failing ?_))
      refine .tail (.single (.startFailed starts fun key => ?_)) .saved
      have there := known id slot rfl
      simp only [record, setSlot, removeSlot, erase_get, insert_get]
      split
      · rename_i same
        exact same ▸ there.symm
      · split
        · rename_i same
          exact same ▸ absent.symm
        · rfl

/-- What may be started, whoever asks. -/
structure Startable (isUuid : IsUuid) (scope : Scope) (actor : Actor) (project terminal : String) :
    Prop where
  projectId : isUuid project = true
  terminalId : isUuid terminal = true
  foreign : actor.Foreign terminal
  allowed : scope.starts project terminal

theorem slotOfTerminal_none {project terminal : String}
    (none_ : actor.slotOfTerminal project terminal = none) (key : String) (slot : Slot)
    (found : actor.slots[key]? = some slot) (same : slot.info.projectId = project) :
    slot.info.terminalId ≠ terminal := by
  have apart := List.find?_eq_none.mp none_ (key, slot) (by simpa using found)
  simpa [same] using apart

theorem slotOfTerminal_some {project terminal id : String} {slot : Slot}
    (some_ : actor.slotOfTerminal project terminal = some (id, slot)) :
    actor.slots[id]? = some slot ∧ slot.info.projectId = project ∧
      slot.info.terminalId = terminal := by
  have member := List.mem_of_find?_eq_some some_
  have pair := List.find?_some some_
  simp only [Bool.and_eq_true, beq_iff_eq] at pair
  exact ⟨by simpa using member, pair⟩

theorem start_opens (ground : Ground isUuid scope.begun actor) {project : String}
    {terminal : Model.TerminalDefinition} (startable : Startable isUuid scope actor project terminal.id)
    (reopen : Bool) :
    Ensures answers (· = actor) (start isUuid project terminal reopen)
      (fun _ => Opens isUuid scope actor) (Opens isUuid scope actor) := by
  refine .thenRead (.thenCheck .refl fun _ serving => .thenCheck .refl fun _ alive => ?_)
  refine .thenCheck .refl fun _ named => .thenCheck .refl fun _ _ => .thenCheck .refl fun _ _ => ?_
  have serving : actor.quiescing = false := by simpa using ensure_eq_ok.mp serving
  have alive : actor.launchDead = false := by simpa using ensure_eq_ok.mp alive
  cases place : actor.slotOfTerminal project terminal.id with
  | none =>
    refine startNew_opens ground (fun _ _ same => by cases same) fun room tracked => ?_
    exact {
      serving, alive, room, named
      tracked := .inr (tracked.resolve_left (by simp))
      alone := fun _ => slotOfTerminal_none place
      ended := fun _ same => by cases same
      projectId := startable.projectId
      terminalId := startable.terminalId
      foreign := startable.foreign
      allowed := startable.allowed }
  | some previous =>
    obtain ⟨id, slot⟩ := previous
    obtain ⟨found, sameProject, sameTerminal⟩ := slotOfTerminal_some place
    dsimp only
    refine .thenCheck .refl fun current reopened => ?_
    cases current with
    | some info => exact .done .refl
    | none =>
      have ended : slot.isLive = false := by
        simp only [checkReopen] at reopened
        split at reopened
        · obtain ⟨_, _, impossible⟩ := bind_eq_ok.mp reopened
          cases impossible
        · simpa using ‹¬ slot.isLive = true›
      refine .thenCheck .refl fun _ drained => ?_
      have drained : slot.runtime = none := by simpa using ensure_eq_ok.mp drained
      refine startNew_opens ground (fun _ _ same => ?_) fun room tracked => ?_
      · cases same
        exact found
      · exact {
          serving, alive, room, named
          tracked := .inl rfl
          alone := fun same => by cases same
          ended := fun key same => by
            cases same
            exact ⟨slot, found, sameProject, sameTerminal, ended, drained⟩
          projectId := startable.projectId
          terminalId := startable.terminalId
          foreign := startable.foreign
          allowed := startable.allowed }

/-- A saved terminal, as the workspace has it. -/
theorem startSaved_opens (ground : Ground isUuid scope.begun actor)
    (loads : actor.Loads isUuid answers) {project terminal : String}
    (uuid : isUuid project = true) (allowed : scope.starts project terminal) (reopen : Bool) :
    Ensures answers (· = actor) (startSaved isUuid project terminal reopen)
      (fun _ => Opens isUuid scope actor) (Opens isUuid scope actor) := by
  have loaded : Ensures answers (· = actor) (do
      let answers ← Procedure.answer
      let projects ← answers.load
      let definition ← projectOf projects project
      let terminal ← context (definition.terminals.find? (·.id == terminal))
        "saved terminal definition is unavailable"
      start isUuid project terminal reopen : Act SessionInfo)
      (fun _ => Opens isUuid scope actor) (Opens isUuid scope actor) := by
    refine .thenAsk fun asked => .thenCheck .refl fun projects load => ?_
    refine .thenCheck .refl fun definition found => .thenCheck .refl fun saved known => ?_
    have member := List.mem_of_find?_eq_some (context_eq_ok.mp known)
    have same : saved.id = terminal := by
      simpa using List.find?_some (context_eq_ok.mp known)
    have listed := List.mem_of_find?_eq_some (context_eq_ok.mp found)
    obtain ⟨valid, foreign⟩ := loads asked projects load definition listed
    refine start_opens ground ⟨uuid, terminals_uuid valid saved member, foreign saved member, ?_⟩ reopen
    exact same ▸ allowed
  refine .thenRead ?_
  cases actor.slotOfTerminal project terminal with
  | none => exact .thenValue loaded
  | some previous =>
    refine .thenCheck .refl fun alive _ => ?_
    cases alive with
    | none => exact loaded
    | some info => exact .done .refl

end Idk.Host
