import Idk.Verified.Host.Change

/-!
# One session over its life

What a slot keeps through everything that can happen to it: which session, project and
kind it is, and a record that the ledger accepts.

**Main results:**

- `Moved.kept`: the session stays the same terminal, run or editor of its project.
- `Sound.moved`: its record stays valid, and the id of a run stays that of its terminal.
-/

namespace Idk.Host

open Idk.Logic
open Relation (ReflTransGen)

inductive SlotKind where
  | terminal
  | run
  | editor
deriving DecidableEq

def SlotPurpose.kind : SlotPurpose → SlotKind
  | .terminal _ => .terminal
  | .run _ => .run
  | .editor => .editor

theorem SlotPurpose.isTerminal_iff (purpose : SlotPurpose) :
    purpose.isTerminal = true ↔ purpose.kind = .terminal := by
  cases purpose <;> simp [isTerminal, kind]

theorem SlotPurpose.isRun_iff (purpose : SlotPurpose) :
    purpose.isRun = true ↔ purpose.kind = .run := by
  cases purpose <;> simp [isRun, kind]

variable (isUuid : IsUuid) (scope : Scope)

namespace Slot

/-- The slot of `session` is well formed and has a record that the ledger accepts. -/
structure Sound (begun : String → Option String) (session : String) (slot : Slot) : Prop where
  sessionId : slot.info.sessionId = session
  cell : slot.cancel = session
  uuid : isUuid session = true
  projectId : isUuid slot.info.projectId = true
  terminalId : isUuid slot.info.terminalId = true
  name : validName slot.info.name = .ok ()
  digest : ∀ digest, slot.info.launchDigest = some digest → Idk.digest digest = .ok ()
  volatile : slot.info.persistent = true → slot.purpose.kind = .terminal
  run : ∀ runId, slot.purpose = .run (some runId) →
    slot.info.terminalId = runId ∧ begun session = some runId

/-- The same session of the same project and kind, renamed at most to its run. -/
structure Kept (begun : String → Option String) (session : String) (before after : Slot) :
    Prop where
  project : after.info.projectId = before.info.projectId
  kind : after.purpose.kind = before.purpose.kind
  terminalId : after.info.terminalId = before.info.terminalId ∨
    begun session = some after.info.terminalId

/-- Nothing that is recorded of who the session is has changed. -/
structure SameIdentity (before after : Slot) : Prop where
  sessionId : after.info.sessionId = before.info.sessionId
  projectId : after.info.projectId = before.info.projectId
  terminalId : after.info.terminalId = before.info.terminalId
  name : after.info.name = before.info.name
  persistent : after.info.persistent = before.info.persistent
  launchDigest : after.info.launchDigest = before.info.launchDigest
  cancel : after.cancel = before.cancel
  purpose : after.purpose = before.purpose

theorem Kept.refl (begun : String → Option String) (session : String) (slot : Slot) :
    Kept begun session slot slot :=
  ⟨rfl, rfl, .inl rfl⟩

theorem Kept.trans {begun : String → Option String} {session : String} {first second third : Slot}
    (one : Kept begun session first second) (two : Kept begun session second third) :
    Kept begun session first third where
  project := two.project.trans one.project
  kind := two.kind.trans one.kind
  terminalId := by
    cases two.terminalId with
    | inr renamed => exact .inr renamed
    | inl same =>
      rw [same]
      exact one.terminalId

namespace SameIdentity

variable {before after : Slot} {begun : String → Option String} {session : String}

theorem refl (slot : Slot) : SameIdentity slot slot := ⟨rfl, rfl, rfl, rfl, rfl, rfl, rfl, rfl⟩

theorem trans {third : Slot} (one : SameIdentity before after) (two : SameIdentity after third) :
    SameIdentity before third where
  sessionId := two.sessionId.trans one.sessionId
  projectId := two.projectId.trans one.projectId
  terminalId := two.terminalId.trans one.terminalId
  name := two.name.trans one.name
  persistent := two.persistent.trans one.persistent
  launchDigest := two.launchDigest.trans one.launchDigest
  cancel := two.cancel.trans one.cancel
  purpose := two.purpose.trans one.purpose

theorem kept (same : SameIdentity before after) : Kept begun session before after :=
  ⟨same.projectId, by rw [same.purpose], .inl same.terminalId⟩

theorem sound (same : SameIdentity before after) (sound : Sound isUuid begun session before) :
    Sound isUuid begun session after where
  sessionId := same.sessionId.trans sound.sessionId
  cell := same.cancel.trans sound.cell
  uuid := sound.uuid
  projectId := same.projectId ▸ sound.projectId
  terminalId := same.terminalId ▸ sound.terminalId
  name := same.name ▸ sound.name
  digest := same.launchDigest ▸ sound.digest
  volatile := same.persistent ▸ same.purpose ▸ sound.volatile
  run runId named := same.terminalId ▸ sound.run runId (same.purpose ▸ named)

end SameIdentity

/-! ## The functions of a slot -/

section Functions

variable (slot : Slot)

theorem withError_identity (error : String) : SameIdentity slot (slot.withError error) :=
  ⟨rfl, rfl, rfl, rfl, rfl, rfl, rfl, rfl⟩

theorem cleanupNotice_identity (message : String) :
    SameIdentity slot (slot.cleanupNotice message) := by
  unfold cleanupNotice
  split
  · exact slot.withError_identity _
  · exact .refl slot

theorem SameIdentity.noticed {slot after : Slot} (same : SameIdentity slot after)
    (message : String) : SameIdentity slot (after.cleanupNotice message) :=
  same.trans (after.cleanupNotice_identity message)

theorem inventory_identity (runsDead : Bool) (host : Pid) (answer : Pid → ChildAnswer)
    (report : Report) (anchor : Anchor) :
    SameIdentity slot (slot.inventory runsDead host answer report anchor).1 := by
  simp only [inventory]
  split
  · refine SameIdentity.noticed ?_ _
    exact ⟨rfl, rfl, rfl, rfl, rfl, rfl, rfl, rfl⟩
  · split
    · refine SameIdentity.noticed ?_ _
      exact ⟨rfl, rfl, rfl, rfl, rfl, rfl, rfl, rfl⟩
    · exact ⟨rfl, rfl, rfl, rfl, rfl, rfl, rfl, rfl⟩

theorem observeExit_identity (exit : TerminalExit) (now : Nat) :
    SameIdentity slot (slot.observeExit exit now) := by
  unfold observeExit
  split
  · refine SameIdentity.noticed ?_ _
    exact ⟨rfl, rfl, rfl, rfl, rfl, rfl, rfl, rfl⟩
  · exact .refl slot

theorem advanceEpoch_identity {slot after : Slot} (done : slot.advanceEpoch = .ok after) :
    SameIdentity slot after := by
  obtain ⟨epoch, _, same⟩ := bind_eq_ok.mp done
  cases same
  exact ⟨rfl, rfl, rfl, rfl, rfl, rfl, rfl, rfl⟩

theorem attach_identity {slot after : Slot} {client : String} {takeover : Bool}
    (done : slot.attach client takeover = .ok after) : SameIdentity slot after := by
  unfold attach at done
  split at done
  · obtain ⟨_, _, done⟩ := bind_eq_ok.mp done
    split at done
    · cases done
      exact .refl slot
    · obtain ⟨advanced, one, done⟩ := bind_eq_ok.mp done
      cases done
      exact (advanceEpoch_identity one).trans ⟨rfl, rfl, rfl, rfl, rfl, rfl, rfl, rfl⟩
  · cases done
    exact .refl slot

theorem detach_identity {slot after : Slot} {client : String} {epoch : Nat}
    (done : slot.detach client epoch = .ok after) : SameIdentity slot after := by
  unfold detach at done
  split at done
  · obtain ⟨_, _, done⟩ := bind_eq_ok.mp done
    obtain ⟨advanced, one, done⟩ := bind_eq_ok.mp done
    cases done
    exact (advanceEpoch_identity one).trans ⟨rfl, rfl, rfl, rfl, rfl, rfl, rfl, rfl⟩
  · cases done
    exact .refl slot

theorem runsDied_identity (now : Nat) : SameIdentity slot (slot.runsDied now) := by
  unfold runsDied
  split
  · simp only
    split <;> exact ⟨rfl, rfl, rfl, rfl, rfl, rfl, rfl, rfl⟩
  · split
    · exact ⟨rfl, rfl, rfl, rfl, rfl, rfl, rfl, rfl⟩
    · exact .refl slot
  · split
    · exact ⟨rfl, rfl, rfl, rfl, rfl, rfl, rfl, rfl⟩
    · exact .refl slot
  · exact .refl slot

/-- A terminal may forget its definition. -/
theorem forgotten_kept {begun : String → Option String} {session : String}
    (kind : slot.purpose.kind = .terminal) :
    Kept begun session slot { slot with purpose := .terminal none } :=
  ⟨rfl, kind.symm, .inl rfl⟩

theorem Sound.forgotten {slot : Slot} {begun : String → Option String} {session : String}
    (sound : Sound isUuid begun session slot) :
    Sound isUuid begun session { slot with purpose := .terminal none } where
  sessionId := sound.sessionId
  cell := sound.cell
  uuid := sound.uuid
  projectId := sound.projectId
  terminalId := sound.terminalId
  name := sound.name
  digest := sound.digest
  volatile _ := rfl
  run _ named := by cases named

theorem Sound.forgetSaved {slot : Slot} {begun : String → Option String} {session : String}
    (sound : Sound isUuid begun session slot) :
    Sound isUuid begun session slot.forgetSaved ∧ Kept begun session slot slot.forgetSaved := by
  unfold Slot.forgetSaved
  split
  · rename_i saved
    exact ⟨sound.forgotten, slot.forgotten_kept (sound.volatile saved)⟩
  · exact ⟨sound, .refl begun session slot⟩

end Functions

/-! ## Everything that happens to a slot -/

variable {isUuid : IsUuid} {scope : Scope} {actor : Actor} {session : String} {slot after : Slot}

theorem Sound.same (sound : Sound isUuid scope.begun session slot)
    (same : SameIdentity slot after) :
    Sound isUuid scope.begun session after ∧ Kept scope.begun session slot after :=
  ⟨same.sound isUuid sound, same.kept⟩

theorem Sound.saved (sound : Sound isUuid scope.begun session slot)
    (same : SameIdentity slot after) :
    Sound isUuid scope.begun session after.forgetSaved ∧
      Kept scope.begun session slot after.forgetSaved := by
  obtain ⟨changed, kept⟩ := sound.same same
  obtain ⟨forgot, still⟩ := changed.forgetSaved
  exact ⟨forgot, kept.trans still⟩

/-- The run of a session gives it its name and its id. -/
theorem Sound.named (sound : Sound isUuid scope.begun session slot) {run : RunInfo}
    (of : scope.begun session = some run.runId) (reported : ReportedRun isUuid run)
    (kind : slot.purpose.kind = .run) :
    Sound isUuid scope.begun session (slot.named run) ∧
      Kept scope.begun session slot (slot.named run) where
  left := {
    sessionId := sound.sessionId
    cell := sound.cell
    uuid := sound.uuid
    projectId := sound.projectId
    terminalId := reported.runId
    name := reported.name
    digest := sound.digest
    volatile := fun saved => by
      have terminal := sound.volatile saved
      rw [kind] at terminal
      cases terminal
    run := fun runId known => by
      obtain rfl : run.runId = runId := by simpa [Slot.named] using known
      exact ⟨rfl, of⟩ }
  right := ⟨rfl, kind.symm, .inr of⟩

theorem Sound.step (sound : Sound isUuid scope.begun session slot)
    (step : Step isUuid scope actor session slot after) :
    Sound isUuid scope.begun session after ∧ Kept scope.begun session slot after := by
  have plain : ∀ {after : Slot}, SameIdentity slot after →
      Sound isUuid scope.begun session after ∧ Kept scope.begun session slot after :=
    fun same => sound.same same
  cases step with
  | noted | requested | cancelAsked | uninitialized | bootstrapTaken | unbootstrapped | placeholder
  | cancelConfirmed | retried => exact plain ⟨rfl, rfl, rfl, rfl, rfl, rfl, rfl, rfl⟩
  | inventoried => exact plain (slot.inventory_identity _ _ _ _ _)
  | detached done => exact plain (detach_identity done)
  | exited => exact plain (slot.observeExit_identity _ _)
  | unprepared | reaped => exact sound.saved ⟨rfl, rfl, rfl, rfl, rfl, rfl, rfl, rfl⟩
  | forgotten ended transient =>
    refine ⟨sound.forgotten, slot.forgotten_kept ?_⟩
    cases purpose : slot.purpose with
    | terminal => rfl
    | run | editor => simp [Slot.transient, purpose] at transient
  | @named run of reported kind =>
    have same : SameIdentity (slot.named run) (slot.nameRun run) :=
      ⟨rfl, rfl, rfl, rfl, rfl, rfl, rfl, rfl⟩
    obtain ⟨sound, kept⟩ := sound.named of reported ((SlotPurpose.isRun_iff _).mp kind)
    exact ⟨same.sound isUuid sound, kept.trans same.kept⟩
  | @unstarted cancelled run error now preparing kind _ of =>
    cases run with
    | none => exact plain ⟨rfl, rfl, rfl, rfl, rfl, rfl, rfl, rfl⟩
    | some run =>
      obtain ⟨begun, reported, kind⟩ := of run rfl
      have ended : SameIdentity slot (slot.unstarted cancelled none error now) :=
        ⟨rfl, rfl, rfl, rfl, rfl, rfl, rfl, rfl⟩
      have kind := (SlotPurpose.isRun_iff _).mp kind
      obtain ⟨sound, kept⟩ := (ended.sound isUuid sound).named begun reported kind
      have same : SameIdentity ((slot.unstarted cancelled none error now).named run)
          (slot.unstarted cancelled (some run) error now) := ⟨rfl, rfl, rfl, rfl, rfl, rfl, rfl, rfl⟩
      exact ⟨same.sound isUuid sound, (ended.kept.trans kept).trans same.kept⟩
  | @accepted runtime prepared awaited =>
    refine ⟨{
      sessionId := sound.sessionId
      cell := sound.cell
      uuid := sound.uuid
      projectId := sound.projectId
      terminalId := sound.terminalId
      name := sound.name
      digest := fun digest known => ?_
      volatile := sound.volatile
      run := sound.run }, ⟨rfl, rfl, .inl rfl⟩⟩
    simp only [Slot.accepted] at known
    split at known
    · cases known
    · rename_i full
      obtain rfl := Option.some.inj known
      exact prepared.resolve_left full

theorem Sound.moved (sound : Sound isUuid scope.begun session slot)
    (moved : Moved isUuid scope actor session slot after) :
    Sound isUuid scope.begun session after ∧ Kept scope.begun session slot after := by
  cases moved with
  | steps moves =>
    induction moves with
    | refl => exact ⟨sound, .refl _ _ _⟩
    | tail _ step inductionHypothesis =>
      obtain ⟨still, kept⟩ := inductionHypothesis
      obtain ⟨still, more⟩ := still.step step
      exact ⟨still, kept.trans more⟩
  | attached done => exact sound.same (attach_identity done)
  | finishing | finishAnswered => exact sound.same ⟨rfl, rfl, rfl, rfl, rfl, rfl, rfl, rfl⟩
  | runsDied => exact sound.same (slot.runsDied_identity _)
  | launchDied =>
    unfold Slot.launchDied
    split
    · exact sound.saved ⟨rfl, rfl, rfl, rfl, rfl, rfl, rfl, rfl⟩
    · exact ⟨sound, .refl _ _ _⟩

end Slot

/-! ## Records -/

/-- Of a record whose ids, name and digest are good only the rules of its purpose are left. -/
theorem HostRecord.validate_identified {isUuid : IsUuid} {record : HostRecord}
    (session : validId isUuid record.sessionId = .ok ())
    (project : validId isUuid record.projectId = .ok ())
    (terminal : validId isUuid record.terminalId = .ok ()) (name : validName record.name = .ok ())
    (digest : record.launchDigest.forM digest = .ok ()) :
    record.validate isUuid =
      match record.purpose with
      | none => ensure record.runId.isNone "ordinary terminal record has a Run identity"
      | some "run" => do
        ensure (!record.persistent) "Run terminal cannot be a saved shell definition"
        record.runId.forM fun id => do
          validId isUuid id
          ensure (id == record.terminalId) "Run terminal identity mismatch"
      | some "editor" =>
        ensure (!record.persistent && record.runId.isNone) "invalid editor terminal identity"
      | some _ => .error "unsupported terminal purpose; record preserved" := by
  simp only [HostRecord.validate, session, project, terminal, name, digest]
  rfl

/-- The record of a sound slot passes the checks on one record. -/
theorem Slot.Sound.valid {isUuid : IsUuid} {begun : String → Option String} {session : String}
    {slot : Slot} (sound : Slot.Sound isUuid begun session slot) :
    (HostRecord.fromSlot slot).validate isUuid = .ok () := by
  have ids : ∀ value, isUuid value = true → validId isUuid value = .ok () := by
    intro value known
    simp [validId, known]
  have digests : (HostRecord.fromSlot slot).launchDigest.forM Idk.digest = .ok () := by
    simp only [HostRecord.fromSlot]
    cases known : slot.info.launchDigest with
    | none => rfl
    | some digest => exact sound.digest digest known
  have sessionId : isUuid (HostRecord.fromSlot slot).sessionId = true := by
    rw [← sound.uuid, ← sound.sessionId]
    rfl
  have session := ids (HostRecord.fromSlot slot).sessionId sessionId
  have project := ids (HostRecord.fromSlot slot).projectId sound.projectId
  have terminal := ids (HostRecord.fromSlot slot).terminalId sound.terminalId
  have name : validName (HostRecord.fromSlot slot).name = .ok () := sound.name
  rw [HostRecord.validate_identified session project terminal name digests]
  have unsaved : slot.purpose.kind ≠ .terminal → slot.info.persistent = false := by
    intro other
    cases saved : slot.info.persistent with
    | false => rfl
    | true => exact absurd (sound.volatile saved) other
  cases purpose : slot.purpose with
  | terminal definition => simp [HostRecord.fromSlot, purpose, SlotPurpose.runId]
  | editor =>
    have unsaved := unsaved (by simp [purpose, SlotPurpose.kind])
    simp [HostRecord.fromSlot, purpose, SlotPurpose.runId, unsaved]
  | run runId =>
    have unsaved := unsaved (by simp [purpose, SlotPurpose.kind])
    cases runId with
    | none =>
      simp [HostRecord.fromSlot, purpose, SlotPurpose.runId, unsaved, bind, Except.bind, pure,
        Except.pure]
    | some runId =>
      obtain ⟨same, _⟩ := sound.run runId purpose
      have known := ids runId (same ▸ sound.terminalId)
      simp [HostRecord.fromSlot, purpose, SlotPurpose.runId, unsaved, known, same, bind, Except.bind]

end Idk.Host
