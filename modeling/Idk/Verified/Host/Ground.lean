import Idk.Verified.Host.Sessions

/-!
# What always holds of a host

`Ground` is kept by every change: each slot is well formed, ids that are still to be drawn
are in use nowhere, and what the workers were given and have answered fits the sessions it
is about.

**Main results:**

- `Change.slot`: each slot after a change is one from before it, or that of a new session.
- `Ground.change`: every change keeps the invariant.
-/

namespace Idk.Host

open Idk.Logic
open Relation (ReflTransGen)
open Actor

variable (isUuid : IsUuid) (scope : Scope)

namespace Actor

/-- What never goes back. -/
structure Later (before after : Actor) : Prop where
  ids : after.ids = before.ids
  nextId : before.nextId ≤ after.nextId
  history : before.history <:+ after.history
  quiescing : before.quiescing = true → after.quiescing = true
  launchDead : before.launchDead = true → after.launchDead = true

theorem Later.refl (actor : Actor) : Later actor actor :=
  ⟨rfl, Nat.le_refl _, List.suffix_refl _, id, id⟩

theorem Later.trans {first second third : Actor} (one : Later first second)
    (two : Later second third) : Later first third where
  ids := two.ids.trans one.ids
  nextId := one.nextId.trans two.nextId
  history := one.history.trans two.history
  quiescing closing := two.quiescing (one.quiescing closing)
  launchDead dead := two.launchDead (one.launchDead dead)

theorem Later.foreign {before after : Actor} (later : Later before after) {id : String}
    (foreign : before.Foreign id) : after.Foreign id := by
  intro index beyond
  rw [later.ids]
  exact foreign index (later.nextId.trans beyond)

/-- The slot of a session that has just been made; `nextId` is what is drawn next. -/
inductive Born (actor : Actor) (nextId : Nat) : String → Slot → Prop where
  | terminal {project : String} {terminal : Model.TerminalDefinition} {previous : Option String}
      (starts : actor.Starts isUuid scope project terminal previous)
      (drawn : actor.nextId < nextId) :
      Born actor nextId (actor.ids actor.nextId)
        (.new (.new actor.hostInstance (actor.ids actor.nextId) project terminal.id terminal.name
          terminal.persistent) (.terminal (some terminal)) (actor.ids actor.nextId))
  | admitted {project name : String} {purpose : SlotPurpose} {request : RunRequest}
      (admits : actor.Admits isUuid scope project purpose name request)
      (drawn : actor.nextId + 1 < nextId) :
      Born actor nextId (actor.ids actor.nextId)
        (.new (.new actor.hostInstance (actor.ids actor.nextId) project
          (actor.ids (actor.nextId + 1)) name false) purpose (actor.ids actor.nextId))

end Actor

variable {isUuid scope} {actor after : Actor}

/-! ## What a change does to the slots -/

theorem Opening.later (opening : Opening isUuid scope actor after) : actor.Later after := by
  cases opening with
  | drew | started | startFailed =>
    exact ⟨rfl, Nat.le_succ _, by simp [opened, record], id, id⟩
  | saved => exact ⟨rfl, Nat.le_refl _, List.suffix_cons _ _, id, id⟩
  | batched => exact ⟨rfl, Nat.le_refl _, List.suffix_refl _, id, id⟩

theorem Change.later (change : Change isUuid scope actor after) : actor.Later after := by
  have recorded : ∀ happening : Happening, actor.history <:+ happening :: actor.history :=
    fun _ => List.suffix_cons _ _
  cases change with
  | opening opening => exact opening.later
  | slots | cells | jobs | gave | eventTaken | runsMarked | runsDied | launchTaken | scanLost | git
  | retired => exact ⟨rfl, Nat.le_refl _, List.suffix_refl _, id, id⟩
  | signalled | leaderExited | leaderReaped | typed | finishSent | finishHeard | scanned | reported =>
    exact ⟨rfl, Nat.le_refl _, recorded _, id, id⟩
  | attached =>
    split
    · exact ⟨rfl, Nat.le_refl _, recorded _, id, id⟩
    · exact ⟨rfl, Nat.le_refl _, List.suffix_refl _, id, id⟩
  | launchDied => exact ⟨rfl, Nat.le_refl _, List.suffix_refl _, id, fun _ => rfl⟩
  | closing follow stays => exact ⟨rfl, Nat.le_refl _, List.suffix_refl _, stays, id⟩
  | admitted => exact ⟨rfl, Nat.le_add_right actor.nextId 3, recorded _, id, id⟩
  | declined _ _ later => exact ⟨rfl, later, recorded _, id, id⟩

theorem opened_get (actor : Actor) (project : String) (terminal : Model.TerminalDefinition)
    (previous : Option String) (key : String) :
    (actor.opened project terminal previous).slots[key]? =
      if actor.ids actor.nextId = key then
        some (.new (.new actor.hostInstance (actor.ids actor.nextId) project terminal.id
          terminal.name terminal.persistent) (.terminal (some terminal)) (actor.ids actor.nextId))
      else if previous = some key then none else actor.slots[key]? := by
  simp only [opened, record, insert_get]
  split
  · rfl
  · cases previous with
    | none => simp
    | some id => simp [erase_get]

theorem reserved_get (actor : Actor) (project : String) (purpose : SlotPurpose) (name key : String) :
    (actor.reserved project purpose name).slots[key]? =
      if actor.ids actor.nextId = key then
        some (.new (.new actor.hostInstance (actor.ids actor.nextId) project
          (actor.ids (actor.nextId + 1)) name false) purpose (actor.ids actor.nextId))
      else actor.slots[key]? := by
  simp only [reserved, record, setSlot, insert_get]

theorem Opening.slot (opening : Opening isUuid scope actor after) {key : String} {slot : Slot}
    (found : after.slots[key]? = some slot) :
    actor.slots[key]? = some slot ∨ actor.Born isUuid scope after.nextId key slot := by
  cases opening with
  | drew | saved | batched => exact .inl found
  | started starts =>
    rw [opened_get] at found
    split at found
    · rename_i new
      cases found
      exact .inr (new ▸ .terminal starts (Nat.lt_succ_self _))
    · split at found
      · cases found
      · exact .inl found
  | startFailed starts same => exact .inl ((same key).symm.trans found)

/-- A slot is changed where it is. -/
theorem modified {key session : String} {change : Slot → Slot} {slots : BTreeMap Slot} {slot : Slot}
    (found : (slots.modify session change)[key]? = some slot) :
    ∃ before, slots[key]? = some before ∧ (slot = before ∨ key = session ∧ slot = change before) := by
  rw [modify_get] at found
  split at found
  · rename_i same
    obtain ⟨before, there, rfl⟩ := Option.map_eq_some_iff.mp found
    exact ⟨before, there, .inr ⟨same.symm, rfl⟩⟩
  · exact ⟨slot, found, .inl rfl⟩

theorem Change.slot (change : Change isUuid scope actor after) {key : String} {slot : Slot}
    (found : after.slots[key]? = some slot) :
    (∃ before, actor.slots[key]? = some before ∧
      Slot.Moved isUuid scope actor key before slot) ∨
        actor.Born isUuid scope after.nextId key slot := by
  have same : ∀ {slot : Slot}, actor.slots[key]? = some slot → ∃ before,
      actor.slots[key]? = some before ∧ Slot.Moved isUuid scope actor key before slot :=
    fun found => ⟨_, found, .steps .refl⟩
  cases change with
  | opening opening => exact (opening.slot found).imp_left same
  | slots moves =>
    have pair := moves key
    simp only at found
    rw [found] at pair
    cases before : actor.slots[key]? with
    | none =>
      rw [before] at pair
      cases pair
    | some slot =>
      rw [before] at pair
      cases pair with
      | some moves => exact .inl ⟨slot, rfl, .steps moves⟩
  | cells | signalled | leaderExited | leaderReaped | typed | jobs | gave | eventTaken | runsMarked
  | launchTaken | scanned | reported | scanLost | git | closing => exact .inl (same found)
  | @attached session client takeover old new there done =>
    have set : (setSlot session new actor).slots[key]? = some slot := by
      split at found <;> exact found
    rw [setSlot, insert_get] at set
    split at set
    · rename_i here
      subst here
      cases set
      exact .inl ⟨old, there, .attached done⟩
    · exact .inl (same set)
  | finishSent there owed =>
    obtain ⟨before, known, rfl | ⟨rfl, rfl⟩⟩ := modified found
    · exact .inl (same known)
    · obtain rfl := Option.some.inj (there.symm.trans known)
      exact .inl ⟨_, known, .finishing owed⟩
  | finishHeard next of finish kind =>
    obtain ⟨before, known, rfl | ⟨rfl, rfl⟩⟩ := modified found
    · exact .inl (same known)
    · exact .inl ⟨before, known, .finishAnswered (kind before known)⟩
  | runsDied =>
    rw [Std.TreeMap.getElem?_map] at found
    obtain ⟨before, there, rfl⟩ := Option.map_eq_some_iff.mp found
    exact .inl ⟨before, there, .runsDied⟩
  | launchDied _ hits =>
    rw [Std.TreeMap.getElem?_map] at found
    obtain ⟨before, there, rfl⟩ := Option.map_eq_some_iff.mp found
    exact .inl ⟨before, there, .launchDied (hits key before there)⟩
  | admitted admits =>
    simp only at found
    rw [reserved_get] at found
    split at found
    · rename_i new
      cases found
      exact .inr (new ▸ .admitted admits (by simp))
    · exact .inl (same found)
  | declined admits same_ => exact .inl (same ((same_ key).symm.trans found))
  | retired =>
    rw [removeSlot, erase_get] at found
    split at found
    · cases found
    · exact .inl (same found)

/-! ## The invariant -/

/-- A worker knows `session`: no id drawn from now on is its name, and while its slot is
    there, it is of one of these kinds. -/
structure Actor.Owns (actor : Actor) (kinds : List SlotKind) (session : String) : Prop where
  foreign : actor.Foreign session
  kind : ∀ slot, actor.slots[session]? = some slot → slot.purpose.kind ∈ kinds

variable (isUuid scope)

def Work.Fits (actor : Actor) : Work → Prop
  | .request _ asked session _ => ∀ name, session = some name →
      actor.Owns [.run, .editor] name ∧
        ∀ project task operation, asked = .start project task operation → actor.Owns [.run] name
  | .cancel _ _ => True
  | .finish session .. => actor.Owns [.run] session

structure RunEvent.Fits (actor : Actor) (begun : String → Option String) (event : RunEvent) :
    Prop where
  prepared : ∀ runtime, event.runtime = some runtime → runtime.Prepared
  asked : event.runtime.isSome = true → event.jobId.isSome = true
  owner : ∀ session, event.sessionId = some session → actor.Owns [.run, .editor] session
  named : ∀ session run, event.sessionId = some session → event.run = some run →
    event.runtime.isSome = true ∨ event.jobId.isSome = true ∧ existingStart event.result = false →
    begun session = some run.runId ∧ ReportedRun isUuid run ∧ actor.Owns [.run] session
  finish : event.jobId = none → event.cancel = none →
    ∃ session, event.sessionId = some session ∧ actor.Owns [.run] session
  reviewed : event.jobId.isSome = true → ∀ review project,
    event.result = .ok (.editorReview review project) → isUuid project = true

structure Ground (begun : String → Option String) (actor : Actor) : Prop where
  distinct : Function.Injective actor.ids
  uuids : ∀ index, isUuid (actor.ids index) = true
  sound : ∀ (key : String) (slot : Slot), actor.slots[key]? = some slot →
    Slot.Sound isUuid begun key slot
  foreign : ∀ (key : String) (slot : Slot), actor.slots[key]? = some slot →
    actor.Foreign key ∧ actor.Foreign slot.info.terminalId
  tracked : actor.slots.size ≤ hostRecordLimit
  begins : ∀ session runId, begun session = some runId →
    actor.Foreign runId ∧ actor.Owns [.run] session
  works : ∀ work ∈ actor.runs.working, work.Fits actor
  events : ∀ event ∈ actor.runs.events, event.Fits isUuid actor begun
  launching : ∀ job ∈ actor.launching.jobs, actor.Owns [.terminal] job.session
  launched : ∀ completed ∈ actor.launching.results, actor.Owns [.terminal] completed.session ∧
    ∀ runtime, completed.result = .ok runtime → runtime.Prepared
  reviews : ∀ (id : String) (job : JobRecord) (review project : String),
    actor.runs.jobs[id]? = some job → job.info.result = some (.editorReview review project) →
      isUuid project = true
  batches : ∀ (id : String) (batch : Batch), actor.batches[id]? = some batch →
    isUuid batch.info.projectId = true

variable {isUuid scope}

/-- The id of a new session is in use nowhere. -/
theorem Actor.Foreign.ne {id : String} (foreign : actor.Foreign id) : actor.ids actor.nextId ≠ id :=
  foreign actor.nextId (Nat.le_refl _)

theorem Actor.Born.key {key : String} {slot : Slot} {nextId : Nat}
    (born : actor.Born isUuid scope nextId key slot) : key = actor.ids actor.nextId := by
  cases born <;> rfl

theorem Ground.drawn {begun : String → Option String} (ground : Ground isUuid begun actor)
    {index : Nat} (before : index < after.nextId) (same : after.ids = actor.ids) :
    after.Foreign (actor.ids index) := by
  intro later beyond equal
  rw [same] at equal
  have := ground.distinct equal
  omega

/-- What was known of a session stays known. -/
theorem Actor.Owns.change {kinds : List SlotKind} {session : String}
    (owns : actor.Owns kinds session) (ground : Ground isUuid scope.begun actor)
    (change : Change isUuid scope actor after) : after.Owns kinds session where
  foreign := change.later.foreign owns.foreign
  kind slot found := by
    cases change.slot found with
    | inl moved =>
      obtain ⟨before, there, moved⟩ := moved
      rw [((ground.sound session before there).moved moved).2.kind]
      exact owns.kind before there
    | inr born => exact absurd born.key.symm owns.foreign.ne

theorem Work.Fits.change {work : Work} (fits : work.Fits actor)
    (ground : Ground isUuid scope.begun actor) (change : Change isUuid scope actor after) :
    work.Fits after := by
  cases work with
  | request id request session cancel =>
    intro name same
    obtain ⟨owns, starts⟩ := fits name same
    exact ⟨owns.change ground change, fun project task operation same =>
      (starts project task operation same).change ground change⟩
  | cancel => trivial
  | finish => exact Actor.Owns.change fits ground change

theorem RunEvent.Fits.change {event : RunEvent} (fits : event.Fits isUuid actor scope.begun)
    (ground : Ground isUuid scope.begun actor) (change : Change isUuid scope actor after) :
    event.Fits isUuid after scope.begun where
  prepared := fits.prepared
  asked := fits.asked
  owner session same := (fits.owner session same).change ground change
  named session run of shown when_ := by
    obtain ⟨begun, reported, owns⟩ := fits.named session run of shown when_
    exact ⟨begun, reported, owns.change ground change⟩
  finish unasked kept := by
    obtain ⟨session, of, owns⟩ := fits.finish unasked kept
    exact ⟨session, of, owns.change ground change⟩
  reviewed := fits.reviewed

/-! ### Every change keeps it -/

theorem Actor.Born.sound (ground : Ground isUuid scope.begun actor) {nextId : Nat} {key : String}
    {slot : Slot} (born : actor.Born isUuid scope nextId key slot) :
    Slot.Sound isUuid scope.begun key slot := by
  cases born with
  | terminal starts drawn =>
    exact ⟨rfl, rfl, ground.uuids _, starts.projectId, starts.terminalId, starts.named, nofun,
      fun _ => rfl, nofun⟩
  | @admitted project name purpose request admits drawn =>
    refine ⟨rfl, rfl, ground.uuids _, admits.projectId, ground.uuids _, admits.named, nofun, nofun,
      fun runId named => ?_⟩
    have unnamed : purpose = .run (some runId) := named
    rcases admits.kind with ⟨run, -⟩ | ⟨editor, -⟩
    · rw [run] at unnamed
      cases unnamed
    · rw [editor] at unnamed
      cases unnamed

theorem Change.foreign (ground : Ground isUuid scope.begun actor)
    (change : Change isUuid scope actor after) {key : String} {slot : Slot}
    (found : after.slots[key]? = some slot) :
    after.Foreign key ∧ after.Foreign slot.info.terminalId := by
  cases change.slot found with
  | inl moved =>
    obtain ⟨before, there, moved⟩ := moved
    obtain ⟨foreign, terminal⟩ := ground.foreign key before there
    refine ⟨change.later.foreign foreign, ?_⟩
    cases ((ground.sound key before there).moved moved).2.terminalId with
    | inl same => exact same ▸ change.later.foreign terminal
    | inr begun => exact change.later.foreign (ground.begins key _ begun).1
  | inr born =>
    have same := change.later.ids
    cases born with
    | terminal starts drawn => exact ⟨ground.drawn drawn same, change.later.foreign starts.foreign⟩
    | admitted admits drawn =>
      exact ⟨ground.drawn (Nat.lt_of_succ_lt drawn) same, ground.drawn drawn same⟩

/-- There is room in the ledger for the new session of a terminal. -/
theorem Actor.Starts.small {project : String} {terminal : Model.TerminalDefinition}
    {previous : Option String} (starts : actor.Starts isUuid scope project terminal previous)
    (tracked : actor.slots.size ≤ hostRecordLimit) :
    (actor.opened project terminal previous).slots.size ≤ hostRecordLimit := by
  simp only [opened, record]
  cases previous with
  | none =>
    have room := starts.tracked.resolve_left nofun
    have grown := Std.TreeMap.size_insert_le (t := actor.slots) (k := actor.ids actor.nextId)
      (v := .new (.new actor.hostInstance (actor.ids actor.nextId) project terminal.id
        terminal.name terminal.persistent) (.terminal (some terminal)) (actor.ids actor.nextId))
    exact grown.trans room
  | some key =>
    obtain ⟨slot, there, -⟩ := starts.ended key rfl
    have held : actor.slots.contains key = true := by
      simp [Std.TreeMap.contains_eq_isSome_getElem?, there]
    have some_ : 0 < actor.slots.size := by
      have shrunk := Std.TreeMap.size_le_size_erase (t := actor.slots) (k := key)
      cases empty : actor.slots.size with
      | succ => omega
      | zero =>
        have none_ : actor.slots.isEmpty = true := by
          simp [Std.TreeMap.isEmpty_eq_size_eq_zero, empty]
        simp [Std.TreeMap.contains_of_isEmpty none_] at held
    have shrunk : (actor.slots.erase key).size = actor.slots.size - 1 := by
      simp [Std.TreeMap.size_erase, held]
    have grown := Std.TreeMap.size_insert_le (t := actor.slots.erase key)
      (k := actor.ids actor.nextId)
      (v := .new (.new actor.hostInstance (actor.ids actor.nextId) project terminal.id
        terminal.name terminal.persistent) (.terminal (some terminal)) (actor.ids actor.nextId))
    simp only [Option.elim]
    omega

theorem Change.tracked (ground : Ground isUuid scope.begun actor)
    (change : Change isUuid scope actor after) : after.slots.size ≤ hostRecordLimit := by
  have tracked := ground.tracked
  have fewer : ∀ {slots : BTreeMap Slot}, (∀ (key : String) slot, slots[key]? = some slot →
      ∃ found, actor.slots[key]? = some found) → slots.size ≤ hostRecordLimit :=
    fun inside => (size_le inside).trans tracked
  cases change with
  | opening opening =>
    cases opening with
    | drew | saved | batched => exact tracked
    | @started project terminal previous starts =>
      exact starts.small tracked
    | startFailed starts same => exact fewer fun key slot found => ⟨slot, (same key).symm.trans found⟩
  | slots moves =>
    refine fewer fun key slot found => ?_
    have pair := moves key
    rw [found] at pair
    cases before : actor.slots[key]? with
    | some slot => exact ⟨slot, rfl⟩
    | none =>
      rw [before] at pair
      cases pair
  | cells | signalled | leaderExited | leaderReaped | typed | jobs | gave | eventTaken | runsMarked
  | launchTaken | scanned | reported | scanLost | git | closing => exact tracked
  | @attached session client takeover old new there done =>
    have held : actor.slots.contains session = true := by
      simp [Std.TreeMap.contains_eq_isSome_getElem?, there]
    have same : (actor.slots.insert session new).size = actor.slots.size := by
      simp [Std.TreeMap.size_insert, held]
    split
    · exact same ▸ tracked
    · exact same ▸ tracked
  | finishSent | finishHeard =>
    simp only [record, modifySlot, Std.TreeMap.size_modify]
    exact tracked
  | runsDied | launchDied =>
    refine fewer fun key slot found => ?_
    rw [Std.TreeMap.getElem?_map] at found
    obtain ⟨before, there, -⟩ := Option.map_eq_some_iff.mp found
    exact ⟨before, there⟩
  | admitted admits =>
    simp only [reserved, record, setSlot]
    exact Std.TreeMap.size_insert_le.trans admits.tracked
  | declined admits same => exact fewer fun key slot found => ⟨slot, (same key).symm.trans found⟩
  | retired => exact Std.TreeMap.size_erase_le.trans tracked

/-- A session that is owed its `Finish` is a run. -/
theorem Slot.toFinish_run {slot : Slot} {now : Nat} {runId : String}
    (owed : slot.toFinish now = some runId) :
    slot.purpose = .run (some runId) ∧ slot.isLive = false ∧ slot.preparing = false ∧
      slot.runtime = none ∧ slot.runFinalization = .pending := by
  unfold Slot.toFinish at owed
  split at owed
  · rename_i ready
    simp only [Bool.and_eq_true, Bool.not_eq_true', Option.isNone_iff_eq_none, beq_iff_eq] at ready
    refine ⟨?_, ready.1.1.1.1, ready.1.1.1.2, ready.1.1.2, ready.1.2⟩
    cases purpose : slot.purpose with
    | run runId => simpa [SlotPurpose.runId, purpose] using owed
    | terminal | editor => simp [SlotPurpose.runId, purpose] at owed
  · cases owed

theorem Change.works (ground : Ground isUuid scope.begun actor)
    (change : Change isUuid scope actor after) : ∀ work ∈ after.runs.working, work.Fits after := by
  have old : ∀ work ∈ actor.runs.working, work.Fits after :=
    fun work member => (ground.works work member).change ground change
  have whole := change
  cases change with
  | opening opening => cases opening <;> exact old
  | slots | cells | signalled | leaderExited | leaderReaped | typed | jobs | eventTaken | runsDied
  | launchTaken | launchDied | scanned | reported | scanLost | git | closing | declined | retired
  | finishHeard => exact old
  | attached =>
    intro work member
    split at member <;> exact old work member
  | runsMarked =>
    intro work member
    refine old work ?_
    simp only [RunBridge.markDead] at member
    split at member <;> exact member
  | gave gives =>
    intro work member
    simp only [RunBridge.give, List.mem_append, List.mem_singleton] at member
    rcases member with member | rfl
    · exact old work member
    · cases gives with
      | request => exact nofun
      | cancel => trivial
  | @finishSent session runId now slot partialOutput found owed =>
    intro work member
    simp only [record, modifySlot, RunBridge.give, List.mem_append, List.mem_singleton] at member
    rcases member with member | rfl
    · exact old work member
    · have owns : actor.Owns [.run] session := by
        refine ⟨(ground.foreign session slot found).1, fun other there => ?_⟩
        obtain rfl := Option.some.inj (found.symm.trans there)
        simp [(Slot.toFinish_run owed).1, SlotPurpose.kind]
      exact owns.change ground whole
  | @admitted project name purpose request admits =>
    intro work member
    simp only [RunBridge.give, List.mem_append, List.mem_singleton] at member
    rcases member with member | rfl
    · exact old work member
    · have found := reserved_get actor project purpose name (actor.ids actor.nextId)
      rw [if_pos rfl] at found
      have foreign := (whole.foreign ground found).1
      have kinds : ∀ {kinds : List SlotKind}, purpose.kind ∈ kinds → ∀ slot,
          (actor.reserved project purpose name).slots[actor.ids actor.nextId]? = some slot →
            slot.purpose.kind ∈ kinds := by
        intro kinds member slot there
        rw [found] at there
        cases there
        exact member
      intro session same
      cases same
      refine ⟨⟨foreign, kinds ?_⟩, fun project task operation started => ⟨foreign, kinds ?_⟩⟩
      · rcases admits.kind with ⟨run, -⟩ | ⟨editor, -⟩
        · simp [run, SlotPurpose.kind]
        · simp [editor, SlotPurpose.kind]
      · rcases admits.kind with ⟨run, -⟩ | ⟨-, review, opens⟩
        · simp [run, SlotPurpose.kind]
        · rw [opens] at started
          cases started

theorem Change.events (change : Change isUuid scope actor after) :
    after.runs.events ⊆ actor.runs.events := by
  cases change with
  | opening opening => cases opening <;> exact fun _ member => member
  | slots | cells | signalled | leaderExited | leaderReaped | typed | jobs | runsDied | gave
  | launchTaken | launchDied | scanned | reported | scanLost | git | closing | declined | retired
  | finishSent | admitted => exact fun _ member => member
  | attached =>
    split <;> exact fun _ member => member
  | runsMarked =>
    simp only [RunBridge.markDead]
    split <;> exact fun _ member => member
  | eventTaken next | finishHeard next =>
    intro event member
    rw [next]
    exact List.mem_cons_of_mem _ member

theorem Change.launched (change : Change isUuid scope actor after) :
    after.launching.results ⊆ actor.launching.results := by
  cases change with
  | opening opening => cases opening <;> exact fun _ member => member
  | slots | cells | signalled | leaderExited | leaderReaped | typed | jobs | runsDied | gave
  | launchDied | scanned | reported | scanLost | git | closing | declined | retired
  | finishSent | admitted | runsMarked | eventTaken | finishHeard => exact fun _ member => member
  | attached =>
    split <;> exact fun _ member => member
  | launchTaken next =>
    intro completed member
    rw [next]
    exact List.mem_cons_of_mem _ member

theorem Change.launching (ground : Ground isUuid scope.begun actor)
    (change : Change isUuid scope actor after) :
    ∀ job ∈ after.launching.jobs, after.Owns [.terminal] job.session := by
  have old : ∀ job ∈ actor.launching.jobs, after.Owns [.terminal] job.session :=
    fun job member => (ground.launching job member).change ground change
  cases change with
  | opening opening =>
    cases opening with
    | drew | saved | startFailed | batched => exact old
    | @started project terminal previous starts =>
      intro job member
      simp only [List.mem_append, List.mem_singleton] at member
      rcases member with member | rfl
      · exact old job member
      · refine ⟨ground.drawn (Nat.lt_succ_self _) rfl, fun slot found => ?_⟩
        simp only at found
        rw [opened_get, if_pos rfl] at found
        cases found
        simp [Slot.new, SlotPurpose.kind]
  | slots | cells | signalled | leaderExited | leaderReaped | typed | jobs | runsDied | gave
  | launchDied | scanned | reported | scanLost | git | closing | declined | retired
  | finishSent | admitted | runsMarked | eventTaken | finishHeard | launchTaken => exact old
  | attached =>
    intro job member
    split at member <;> exact old job member

theorem Change.reviews (ground : Ground isUuid scope.begun actor)
    (change : Change isUuid scope actor after) {id : String} {job : JobRecord}
    {review project : String} (found : after.runs.jobs[id]? = some job)
    (reviewed : job.info.result = some (.editorReview review project)) : isUuid project = true := by
  have old := ground.reviews id job review project
  cases change with
  | opening opening => cases opening <;> exact old found reviewed
  | slots | cells | signalled | leaderExited | leaderReaped | typed | runsDied | gave | launchTaken
  | launchDied | scanned | reported | scanLost | git | closing | declined | retired
  | finishSent | admitted | eventTaken | finishHeard => exact old found reviewed
  | attached =>
    split at found <;> exact old found reviewed
  | jobs kept =>
    rcases kept id job review project found reviewed with uuid | ⟨other, before, there, same⟩
    · exact uuid
    · exact ground.reviews other before review project there same
  | runsMarked =>
    simp only [RunBridge.markDead] at found
    split at found
    · exact old found reviewed
    · rw [Std.TreeMap.getElem?_map] at found
      obtain ⟨before, there, rfl⟩ := Option.map_eq_some_iff.mp found
      refine ground.reviews id before review project there ?_
      split at reviewed <;> exact reviewed

theorem Change.batches (ground : Ground isUuid scope.begun actor)
    (change : Change isUuid scope actor after) {id : String} {batch : Batch}
    (found : after.batches[id]? = some batch) : isUuid batch.info.projectId = true := by
  have old := ground.batches id batch
  cases change with
  | opening opening =>
    cases opening with
    | drew | saved | started | startFailed => exact old found
    | batched follow =>
      rcases follow id batch found with ⟨before, there, follows⟩ | ⟨-, -, uuid⟩
      · exact follows.project ▸ ground.batches id before there
      · exact uuid
  | slots | cells | signalled | leaderExited | leaderReaped | typed | runsDied | gave | launchTaken
  | launchDied | scanned | reported | scanLost | git | jobs | declined | retired | runsMarked
  | finishSent | admitted | eventTaken | finishHeard => exact old found
  | attached =>
    split at found <;> exact old found
  | closing follow =>
    obtain ⟨before, there, follows⟩ := follow id batch found
    exact follows.project ▸ ground.batches id before there

theorem Ground.change (ground : Ground isUuid scope.begun actor)
    (change : Change isUuid scope actor after) : Ground isUuid scope.begun after where
  distinct := change.later.ids ▸ ground.distinct
  uuids := change.later.ids ▸ ground.uuids
  sound key slot found := by
    cases change.slot found with
    | inl moved =>
      obtain ⟨before, there, moved⟩ := moved
      exact ((ground.sound key before there).moved moved).1
    | inr born => exact born.sound ground
  foreign _ _ found := change.foreign ground found
  tracked := change.tracked ground
  begins session runId begun := by
    obtain ⟨foreign, owns⟩ := ground.begins session runId begun
    exact ⟨change.later.foreign foreign, owns.change ground change⟩
  works := change.works ground
  events event member := (ground.events event (change.events member)).change ground change
  launching := change.launching ground
  launched completed member := by
    obtain ⟨owns, prepared⟩ := ground.launched completed (change.launched member)
    exact ⟨owns.change ground change, prepared⟩
  reviews _ _ _ _ found reviewed := change.reviews ground found reviewed
  batches _ _ found := change.batches ground found

/-- What every change keeps, a sequence of changes keeps. -/
theorem Ground.changes (ground : Ground isUuid scope.begun actor)
    (changes : ReflTransGen (Change isUuid scope) actor after) :
    Ground isUuid scope.begun after := by
  induction changes with
  | refl => exact ground
  | tail _ change inductionHypothesis => exact inductionHypothesis.change change

end Idk.Host
