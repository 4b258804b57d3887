import Idk.Verified.Host.Workers

/-!
# A host that has just been opened

The slots of a new host are those of the records of its ledger, one for each, and none of
them is live.

**Main result:** `World.Initial.ground`.
-/

namespace Idk.Host

open Idk.Logic
open Actor

variable {isUuid : IsUuid}

/-! ## Records -/

theorem checkRecords_valid {seen records : List HostRecord}
    (checked : checkRecords isUuid seen records = .ok ()) :
    ∀ record ∈ records, record.validate isUuid = .ok () := by
  induction records generalizing seen with
  | nil => simp
  | cons head rest inductionHypothesis =>
    obtain ⟨_, valid, checked⟩ := bind_eq_ok.mp checked
    obtain ⟨_, _, checked⟩ := bind_eq_ok.mp checked
    intro record member
    cases member with
    | head => exact valid
    | tail _ member => exact inductionHypothesis checked record member

/-- What is known of a record that was restored. -/
structure Restores (isUuid : IsUuid) (record : HostRecord) (info : SessionInfo) : Prop where
  session : isUuid record.sessionId = true
  project : isUuid record.projectId = true
  terminal : isUuid record.terminalId = true
  name : validName record.name = .ok ()
  sessionId : info.sessionId = record.sessionId
  projectId : info.projectId = record.projectId
  terminalId : info.terminalId = record.terminalId
  named : info.name = record.name
  persistent : info.persistent = record.persistent
  launchDigest : info.launchDigest = record.launchDigest
  ended : info.state.isLive = false
  owner : info.owner = none
  epoch : info.inputEpoch = 0

theorem restore_ends {record : HostRecord} {hostInstance : String} {info : SessionInfo}
    (restored : record.restore isUuid hostInstance = .ok info) : Restores isUuid record info := by
  obtain ⟨_, session, restored⟩ := bind_eq_ok.mp restored
  obtain ⟨_, project, restored⟩ := bind_eq_ok.mp restored
  obtain ⟨_, terminal, restored⟩ := bind_eq_ok.mp restored
  obtain ⟨_, name, restored⟩ := bind_eq_ok.mp restored
  obtain ⟨_, _, restored⟩ := bind_eq_ok.mp restored
  cases restored
  refine ⟨ensure_eq_ok.mp session, ensure_eq_ok.mp project, ensure_eq_ok.mp terminal, name, rfl, rfl,
    rfl, rfl, rfl, rfl, ?_, rfl, rfl⟩
  -- a session that was live is unknown now
  dsimp only
  split
  · rfl
  · rename_i known
    simp only [Bool.or_eq_true, not_or, Bool.not_eq_true] at known
    exact known.1

theorem slotPurpose_cases {record : HostRecord} {purpose : SlotPurpose}
    (of : record.slotPurpose = .ok purpose) :
    record.purpose = some "run" ∧ purpose = .run record.runId ∨
      record.purpose = some "editor" ∧ purpose = .editor ∨
        record.purpose = none ∧ purpose = .terminal none := by
  unfold HostRecord.slotPurpose at of
  split at of
  · cases of
    exact .inl ⟨‹_›, rfl⟩
  · cases of
    exact .inr (.inl ⟨‹_›, rfl⟩)
  · cases of
    exact .inr (.inr ⟨‹_›, rfl⟩)
  · cases of

theorem forM_ok {α : Type} {check : α → Result Unit} {value : α} {found : Option α}
    (checked : found.forM check = .ok ()) (same : found = some value) : check value = .ok () := by
  subst same
  exact checked

/-- What the checks of a record say of its purpose. -/
theorem validate_purpose {record : HostRecord} (valid : record.validate isUuid = .ok ()) :
    (∀ text, record.launchDigest = some text → digest text = .ok ()) ∧
      (record.purpose ≠ none → record.persistent = false) ∧
      (record.purpose = some "run" → ∀ runId, record.runId = some runId →
        runId = record.terminalId) := by
  obtain ⟨_, -, valid⟩ := bind_eq_ok.mp valid
  obtain ⟨_, -, valid⟩ := bind_eq_ok.mp valid
  obtain ⟨_, -, valid⟩ := bind_eq_ok.mp valid
  obtain ⟨_, -, valid⟩ := bind_eq_ok.mp valid
  obtain ⟨_, digests, valid⟩ := bind_eq_ok.mp valid
  refine ⟨fun text same => forM_ok digests same, ?_⟩
  cases purpose : record.purpose with
  | none => exact ⟨fun other => absurd rfl other, fun other => by cases other⟩
  | some kind =>
    rw [purpose] at valid
    split at valid
    · cases ‹some kind = none›
    · obtain ⟨_, unsaved, identity⟩ := bind_eq_ok.mp valid
      refine ⟨fun _ => by simpa using ensure_eq_ok.mp unsaved, fun _ runId same => ?_⟩
      rw [same] at identity
      obtain ⟨_, -, matches_⟩ := bind_eq_ok.mp identity
      simpa using ensure_eq_ok.mp matches_
    · rename_i kind_ _
      have plain := ensure_eq_ok.mp valid
      simp only [Bool.and_eq_true, Bool.not_eq_true'] at plain
      refine ⟨fun _ => plain.1, fun other => ?_⟩
      simp_all
    · cases valid

theorem restored_sound {record : HostRecord} {info : SessionInfo} {purpose : SlotPurpose}
    {begun : String → Option String} (valid : record.validate isUuid = .ok ())
    (restores : Restores isUuid record info) (of : record.slotPurpose = .ok purpose)
    (known : ∀ runId, purpose = .run (some runId) → begun info.sessionId = some runId) :
    Slot.Sound isUuid begun info.sessionId (.restored info purpose info.sessionId) := by
  obtain ⟨digests, unsaved, identity⟩ := validate_purpose valid
  exact {
    sessionId := rfl
    cell := rfl
    uuid := restores.sessionId ▸ restores.session
    projectId := (congrArg isUuid restores.projectId).trans restores.project
    terminalId := (congrArg isUuid restores.terminalId).trans restores.terminal
    name := (congrArg validName restores.named).trans restores.name
    digest := fun text same => digests text (restores.launchDigest ▸ same)
    volatile := fun saved => by
      have kept : record.persistent = true := restores.persistent ▸ saved
      obtain ⟨kind, rfl⟩ | ⟨kind, rfl⟩ | ⟨kind, rfl⟩ := slotPurpose_cases of
      · simp [unsaved (by simp [kind])] at kept
      · simp [unsaved (by simp [kind])] at kept
      · rfl
    run := fun runId named => by
      refine ⟨?_, known runId named⟩
      obtain ⟨kind, rfl⟩ | ⟨kind, rfl⟩ | ⟨kind, rfl⟩ := slotPurpose_cases of
      · have same : record.runId = some runId := by simpa [Slot.restored, Slot.new] using named
        exact restores.terminalId.trans (identity kind runId same).symm
      · cases named
      · cases named }

/-! ## Slots -/

/-- The slots that have been made of some records. -/
structure Restored (isUuid : IsUuid) (hostInstance : String) (records : List HostRecord)
    (slots : BTreeMap Slot) : Prop where
  size : slots.size ≤ records.length
  from_ : ∀ (key : String) (slot : Slot), slots[key]? = some slot → ∃ record ∈ records, ∃ info purpose,
    record.restore isUuid hostInstance = .ok info ∧ record.slotPurpose = .ok purpose ∧
      info.sessionId = key ∧ slot = .restored info purpose key
  pairs : ∀ (one other : String) (slot second : Slot), slots[one]? = some slot →
    slots[other]? = some second → slot.info.projectId = second.info.projectId →
      slot.info.terminalId = second.info.terminalId → one = other

theorem restoreSlot_ends {hostInstance : String} {seen : List HostRecord} {slots last : BTreeMap Slot}
    {record : HostRecord} (before : Restored isUuid hostInstance seen slots)
    (restored : restoreSlot isUuid hostInstance slots record = .ok last) :
    Restored isUuid hostInstance (seen ++ [record]) last := by
  obtain ⟨purpose, of, restored⟩ := bind_eq_ok.mp restored
  obtain ⟨info, made, restored⟩ := bind_eq_ok.mp restored
  obtain ⟨_, fresh, restored⟩ := bind_eq_ok.mp restored
  cases restored
  have fresh := ensure_eq_ok.mp fresh
  simp only [Bool.and_eq_true, Bool.not_eq_true', List.any_eq_false] at fresh
  -- no other slot has the project and the terminal of the new one
  have apart : ∀ (key : String) (slot : Slot), slots[key]? = some slot →
      slot.info.projectId = info.projectId → slot.info.terminalId ≠ info.terminalId := by
    intro key slot found project terminal
    have listed := Std.TreeMap.mem_toList_iff_getElem?_eq_some.mpr found
    exact fresh.1 (key, slot) listed (by simp [project, terminal])
  refine ⟨?_, fun key slot found => ?_, fun one other slot second here there project terminal => ?_⟩
  · have grown := Std.TreeMap.size_insert_le (t := slots) (k := info.sessionId)
      (v := Slot.restored info purpose info.sessionId)
    have less := before.size
    simp only [List.length_append, List.length_singleton]
    omega
  · rw [insert_get] at found
    split at found
    · rename_i same
      cases found
      exact ⟨record, by simp, info, purpose, made, of, same, by rw [same]⟩
    · obtain ⟨earlier, member, rest⟩ := before.from_ key slot found
      exact ⟨earlier, List.mem_append_left _ member, rest⟩
  · rw [insert_get] at here there
    split at here
    · split at there
      · exact ‹info.sessionId = one›.symm.trans ‹info.sessionId = other›
      · cases here
        exact absurd terminal.symm (apart other second there project.symm)
    · split at there
      · cases there
        exact absurd terminal (apart one slot here project)
      · exact before.pairs one other slot second here there project terminal

theorem restoreSlots_fold {hostInstance : String} {records seen : List HostRecord}
    {slots last : BTreeMap Slot} (before : Restored isUuid hostInstance seen slots)
    (restored : records.foldlM (restoreSlot isUuid hostInstance) slots = .ok last) :
    Restored isUuid hostInstance (seen ++ records) last := by
  induction records generalizing seen slots with
  | nil =>
    cases restored
    simpa using before
  | cons record rest inductionHypothesis =>
    rw [List.foldlM_cons] at restored
    obtain ⟨middle, one, restored⟩ := bind_eq_ok.mp restored
    have after := inductionHypothesis (restoreSlot_ends before one) restored
    rwa [List.append_assoc] at after

/-- The slots of a host that is opened on this ledger. -/
theorem restoreSlots_ends {hostInstance : String} {ledger : Option HostLedger}
    {slots : BTreeMap Slot} (restored : restoreSlots isUuid hostInstance ledger = .ok slots) :
    ∃ records, Restored isUuid hostInstance records slots ∧ records.length ≤ hostRecordLimit ∧
      ∀ record ∈ records, record.validate isUuid = .ok () := by
  have nothing : Restored isUuid hostInstance [] ∅ := by
    refine ⟨Nat.le_refl _, fun key slot found => ?_, fun one other slot second here => ?_⟩
    · simp at found
    · simp at here
  cases ledger with
  | none =>
    cases restored
    exact ⟨[], nothing, Nat.zero_le _, by simp⟩
  | some ledger =>
    obtain ⟨_, valid, folded⟩ := bind_eq_ok.mp restored
    obtain ⟨_, small, checked⟩ := bind_eq_ok.mp valid
    have small := ensure_eq_ok.mp small
    simp only [Bool.and_eq_true, decide_eq_true_eq] at small
    exact ⟨ledger.sessions, restoreSlots_fold nothing folded, small.2, checkRecords_valid checked⟩

/-! ## The new host -/

variable {formats : Git.GitFormats} {world : World}

/-- The actor of a new host with the records that its slots are made of. -/
structure World.New (isUuid : IsUuid) (world : World) (hostInstance : String)
    (records : List HostRecord) : Prop where
  slots : Restored isUuid hostInstance records world.actor.slots
  small : records.length ≤ hostRecordLimit
  valid : ∀ record ∈ records, record.validate isUuid = .ok ()
  batches : world.actor.batches = ∅
  runs : world.actor.runs = ⟨∅, 0, false, [], [], true⟩
  launching : world.actor.launching = ⟨[], [], true⟩
  scanning : world.actor.scanning = ⟨[], [], true⟩
  runsDead : world.actor.runsDead = false
  launchDead : world.actor.launchDead = false
  quiescing : world.actor.quiescing = false
  nextId : world.actor.nextId = 0
  history : world.actor.history = []

theorem World.Initial.new (initial : World.Initial isUuid formats world) :
    ∃ hostInstance records, world.New isUuid hostInstance records := by
  obtain ⟨hostInstance, pid, ledger, slots, instanceId, disk, answers, ids, now, restored, -, same⟩ :=
    initial.opened
  obtain ⟨records, made, small, valid⟩ := restoreSlots_ends restored
  refine ⟨hostInstance, records, ?_, small, valid, ?_, ?_, ?_, ?_, ?_, ?_, ?_, ?_, ?_⟩ <;> rw [same]
  · exact made
  all_goals rfl

theorem World.Initial.ground (initial : World.Initial isUuid formats world) :
    Ground isUuid world.begun world.actor := by
  obtain ⟨hostInstance, records, new⟩ := initial.new
  have sound : ∀ (key : String) (slot : Slot), world.actor.slots[key]? = some slot →
      Slot.Sound isUuid world.begun key slot := by
    intro key slot found
    obtain ⟨record, member, info, purpose, made, of, rfl, rfl⟩ := new.slots.from_ key slot found
    refine restored_sound (new.valid record member) (restore_ends made) of fun runId named => ?_
    rw [initial.begun, found]
    exact congrArg SlotPurpose.runId named
  exact {
    distinct := initial.distinct
    uuids := initial.uuids
    sound := sound
    foreign := initial.foreign
    tracked := new.slots.size.trans new.small
    begins := fun session runId begun => by
      rw [initial.begun] at begun
      obtain ⟨slot, found, named⟩ := Option.bind_eq_some_iff.mp begun
      obtain ⟨foreign, terminal⟩ := initial.foreign session slot found
      have run : slot.purpose = .run (some runId) := by
        cases purpose : slot.purpose <;> simp_all [SlotPurpose.runId]
      refine ⟨((sound session slot found).run runId run).1 ▸ terminal, foreign, fun other there => ?_⟩
      obtain rfl := Option.some.inj (found.symm.trans there)
      simp [run, SlotPurpose.kind]
    works := by simp [new.runs]
    events := by simp [new.runs]
    launching := by simp [new.launching]
    launched := by simp [new.launching]
    reviews := by simp [new.runs]
    batches := by simp [new.batches] }

theorem World.Initial.workers (initial : World.Initial isUuid formats world) :
    world.actor.Workers := by
  obtain ⟨hostInstance, records, new⟩ := initial.new
  refine ⟨?_, ?_, ?_, ?_, ?_⟩ <;> simp [new.launching, new.launchDead, new.runs, new.runsDead]

theorem World.Initial.timely (initial : World.Initial isUuid formats world) :
    world.actor.Timely := by
  obtain ⟨hostInstance, records, new⟩ := initial.new
  refine ⟨?_, fun session pending => ?_⟩
  · simp [outstanding, new.launching, new.runs]
  · simp [outstanding, new.launching, new.runs] at pending

end Idk.Host
