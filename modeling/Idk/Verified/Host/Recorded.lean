import Idk.Verified.Host.Histories
import Idk.Verified.Host.Lives

/-!
# The session ledger can always be written

The ledger that is made of the slots passes its own check, at every point at which it is
written, as long as no terminal is started under the id of a run that was begun for a session of
the same project and is not shown there yet: naming that session would make a pair of the two.

**Main results:**

- `ledger_writable`: the ledger of a host, and all it ever wrote, is valid.
- `ledger_pair`: a terminal under the id of a run makes it invalid.
-/

namespace Idk.Host

open Idk.Logic
open Relation (ReflTransGen)
open Actor

variable {isUuid : IsUuid} {formats : Git.GitFormats} {scope : Scope} {origin actor after : Actor}

/-! ## The check of a ledger -/

/-- Two records that may stand in one ledger. -/
def HostRecord.Differs (one other : HostRecord) : Prop :=
  one.sessionId ≠ other.sessionId ∧
    (one.projectId = other.projectId → one.terminalId ≠ other.terminalId)

theorem checkRecords_ok {seen records : List HostRecord}
    (valid : ∀ record ∈ records, record.validate isUuid = .ok ())
    (apart : ∀ record ∈ records, ∀ other ∈ seen, other.Differs record)
    (distinct : records.Pairwise HostRecord.Differs) :
    checkRecords isUuid seen records = .ok () := by
  induction records generalizing seen with
  | nil => rfl
  | cons head rest inductionHypothesis =>
    obtain ⟨first, distinct⟩ := List.pairwise_cons.mp distinct
    have here := apart head List.mem_cons_self
    have fresh : (!seen.any (·.sessionId == head.sessionId) && !seen.any fun other =>
        other.projectId == head.projectId && other.terminalId == head.terminalId) = true := by
      simp only [Bool.and_eq_true, Bool.not_eq_true', List.any_eq_false]
      refine ⟨fun other member => ?_, fun other member => ?_⟩
      · simpa using (here other member).1
      · simpa using (here other member).2
    refine bind_eq_ok.mpr ⟨(), valid head List.mem_cons_self, ?_⟩
    refine bind_eq_ok.mpr ⟨(), ensure_eq_ok.mpr fresh, ?_⟩
    refine inductionHypothesis (fun record member => valid record (List.mem_cons_of_mem _ member))
      (fun record member other listed => ?_) distinct
    rcases List.mem_cons.mp listed with rfl | earlier
    · exact first record member
    · exact apart record (List.mem_cons_of_mem _ member) other earlier

/-! ## The terminals of a project -/

/-- The terminal is that of the session, or the run that was begun for it. -/
def Slot.Claims (begun : String → Option String) (session : String) (slot : Slot)
    (terminal : String) : Prop :=
  slot.info.terminalId = terminal ∨ begun session = some terminal

/-- No two sessions of a project claim the same terminal. -/
def Apart (begun : String → Option String) (slots : BTreeMap Slot) : Prop :=
  ∀ (one other : String) (slot second : Slot) (terminal : String), slots[one]? = some slot →
    slots[other]? = some second → slot.info.projectId = second.info.projectId →
      slot.Claims begun one terminal → second.Claims begun other terminal → one = other

theorem ledger_valid {begun : String → Option String}
    (sound : ∀ (key : String) (slot : Slot), actor.slots[key]? = some slot →
      Slot.Sound isUuid begun key slot)
    (apart : Apart begun actor.slots) (small : actor.slots.size ≤ hostRecordLimit) :
    actor.ledger.validate isUuid = .ok () := by
  have listed : ∀ entry ∈ actor.slots.toList, actor.slots[entry.1]? = some entry.2 :=
    fun entry member => Std.TreeMap.mem_toList_iff_getElem?_eq_some.mp member
  have distinct : actor.ledger.sessions.Pairwise HostRecord.Differs := by
    refine List.pairwise_map.mpr ((toList_distinct actor.slots).imp_of_mem ?_)
    intro one other here there differs
    refine ⟨fun same => differs ?_, fun project terminal => differs ?_⟩
    · exact ((sound one.1 one.2 (listed one here)).sessionId.symm.trans same).trans
        (sound other.1 other.2 (listed other there)).sessionId
    · exact apart one.1 other.1 one.2 other.2 _ (listed one here) (listed other there) project
        (.inl rfl) (.inl terminal.symm)
  refine bind_eq_ok.mpr ⟨(), ensure_eq_ok.mpr ?_, checkRecords_ok ?_ (by simp) distinct⟩
  · simpa [ledger] using small
  · intro record member
    obtain ⟨entry, here, rfl⟩ := List.mem_map.mp member
    exact (sound entry.1 entry.2 (listed entry here)).valid

/-- Of a valid ledger only the write is left to fail. -/
theorem persist_valid (valid : actor.ledger.validate isUuid = .ok ())
    (answers : Nat → HostAnswers) (asked : Nat) :
    persist isUuid answers asked actor =
      ⟨(answers asked).write, asked + 1, actor.record (.persisted actor.ledger)⟩ := by
  simp only [persist, Bind.bind, Procedure.current, Procedure.update, valid]
  rfl

/-! ## What a change does to them -/

/-- Sessions that are kept claim nothing new. -/
theorem Slot.Kept.claims {begun : String → Option String} {session : String} {before last : Slot}
    (kept : Slot.Kept begun session before last) {terminal : String}
    (claims : last.Claims begun session terminal) : before.Claims begun session terminal := by
  rcases claims with same | begins
  · rcases kept.terminalId with unchanged | renamed
    · exact .inl (unchanged.symm.trans same)
    · exact .inr (renamed.trans (congrArg some same))
  · exact .inr begins

theorem Apart.kept {begun : String → Option String} {slots last : BTreeMap Slot}
    (apart : Apart begun slots)
    (kept : ∀ (key : String) (slot : Slot), last[key]? = some slot →
      ∃ before, slots[key]? = some before ∧ Slot.Kept begun key before slot) :
    Apart begun last := by
  intro one other slot second terminal here there project claims also
  obtain ⟨first, known, same⟩ := kept one slot here
  obtain ⟨next, found, equal⟩ := kept other second there
  exact apart one other first next terminal known found
    (same.project.symm.trans (project.trans equal.project)) (same.claims claims) (equal.claims also)

/-- A session that claims only a terminal that nobody else claims may be added. -/
theorem Apart.more {begun : String → Option String} {slots last : BTreeMap Slot} {session : String}
    (new : Slot) (apart : Apart begun slots)
    (others : ∀ (key : String) (slot : Slot), last[key]? = some slot →
      key = session ∧ slot = new ∨ slots[key]? = some slot ∧
        (slot.info.projectId = new.info.projectId → ¬ slot.Claims begun key new.info.terminalId))
    (unbegun : begun session = none) : Apart begun last := by
  have only {terminal : String} (claims : new.Claims begun session terminal) :
      new.info.terminalId = terminal :=
    claims.resolve_right fun begins => by
      rw [unbegun] at begins
      cases begins
  intro one other slot second terminal here there project claims also
  rcases others one slot here with ⟨rfl, rfl⟩ | ⟨known, free⟩
  · rcases others other second there with ⟨rfl, rfl⟩ | ⟨-, free⟩
    · rfl
    · exact absurd ((only claims).symm ▸ also) (free project.symm)
  · rcases others other second there with ⟨rfl, rfl⟩ | ⟨found, -⟩
    · exact absurd ((only also).symm ▸ claims) (free project)
    · exact apart one other slot second terminal known found project claims also

variable (scope) in
/-- No terminal may be started under the id of a run that was begun for a session of its project
    and is not its terminal yet. -/
def Actor.Unclaimed (actor : Actor) : Prop :=
  ∀ project terminal, scope.starts project terminal → ∀ (key : String) (slot : Slot),
    actor.slots[key]? = some slot → slot.info.projectId = project →
      scope.begun key = some terminal → slot.info.terminalId = terminal

/-- No run has been begun for a session that is only drawn now. -/
theorem Ground.unbegun (ground : Ground isUuid scope.begun actor) :
    scope.begun (actor.ids actor.nextId) = none := by
  cases begun : scope.begun (actor.ids actor.nextId) with
  | none => rfl
  | some runId => exact absurd rfl (ground.begins _ runId begun).2.foreign.ne

theorem Actor.Starts.apart {project : String} {terminal : Model.TerminalDefinition}
    {previous : Option String} (ground : Ground isUuid scope.begun actor)
    (apart : Apart scope.begun actor.slots) (unclaimed : actor.Unclaimed scope)
    (starts : actor.Starts isUuid scope project terminal previous) :
    Apart scope.begun (actor.opened project terminal previous).slots := by
  refine apart.more (.new (.new actor.hostInstance (actor.ids actor.nextId) project terminal.id
    terminal.name terminal.persistent) (.terminal (some terminal)) (actor.ids actor.nextId))
    (fun key slot found => ?_) ground.unbegun
  rw [opened_get] at found
  split at found
  · rename_i new
    exact .inl ⟨new.symm, (Option.some.inj found).symm⟩
  · split at found
    · cases found
    · rename_i kept
      refine .inr ⟨found, fun same claims => ?_⟩
      -- the session that is replaced was the only one to claim the terminal
      have taken : slot.info.terminalId = terminal.id :=
        claims.elim id (unclaimed project terminal.id starts.allowed key slot found same)
      cases previous with
      | none => exact starts.alone rfl key slot found same taken
      | some id =>
        obtain ⟨ended, there, project_, terminal_, -⟩ := starts.ended id rfl
        exact kept (congrArg some (apart id key ended slot terminal.id there found
          (project_.trans same.symm) (.inl terminal_) (.inl taken)))

theorem reserved_apart (ground : Ground isUuid scope.begun actor)
    (apart : Apart scope.begun actor.slots) (project : String) (purpose : SlotPurpose)
    (name : String) :
    Apart scope.begun (actor.reserved project purpose name).slots := by
  refine apart.more (.new (.new actor.hostInstance (actor.ids actor.nextId) project
    (actor.ids (actor.nextId + 1)) name false) purpose (actor.ids actor.nextId))
    (fun key slot found => ?_) ground.unbegun
  rw [reserved_get] at found
  split at found
  · rename_i new
    exact .inl ⟨new.symm, (Option.some.inj found).symm⟩
  · refine .inr ⟨found, fun _ claims => ?_⟩
    -- the id of the terminal has just been drawn
    have drawn := Nat.le_succ actor.nextId
    rcases claims with same | begins
    · exact (ground.foreign key slot found).2 _ drawn same.symm
    · exact (ground.begins key _ begins).1 _ drawn rfl

theorem Change.apart (ground : Ground isUuid scope.begun actor)
    (apart : Apart scope.begun actor.slots) (unclaimed : actor.Unclaimed scope)
    (change : Change isUuid scope actor after) : Apart scope.begun after.slots := by
  have kept : (∀ (key : String) (slot : Slot), after.slots[key]? = some slot →
      ¬ actor.Born isUuid scope after.nextId key slot) → Apart scope.begun after.slots := by
    intro none_
    refine apart.kept fun key slot found => ?_
    obtain ⟨before, there, moved⟩ := (change.slot found).resolve_right (none_ key slot found)
    exact ⟨before, there, ((ground.sound key before there).moved moved).2⟩
  -- where no id is drawn, no session is new
  have undrawn : after.nextId = actor.nextId → Apart scope.begun after.slots := by
    intro same
    refine kept fun key slot _ born => ?_
    cases born with
    | terminal _ drawn => omega
    | admitted _ drawn => omega
  have same : (∀ key : String, after.slots[key]? = actor.slots[key]?) →
      Apart scope.begun after.slots :=
    fun same => apart.kept fun key slot found => ⟨slot, same key ▸ found, .refl _ _ _⟩
  cases change with
  | opening opening =>
    cases opening with
    | drew | saved | batched => exact apart
    | started starts => exact starts.apart ground apart unclaimed
    | startFailed starts unchanged => exact same unchanged
  | admitted => exact reserved_apart ground apart _ _ _
  | declined _ unchanged => exact same unchanged
  | attached =>
    refine undrawn ?_
    split <;> rfl
  | slots | cells | signalled | leaderExited | leaderReaped | typed | jobs | gave | finishSent
  | finishHeard | eventTaken | runsMarked | runsDied | launchTaken | launchDied | scanned | reported
  | scanLost | git | closing | retired => exact undrawn rfl

/-- Every ledger that was written is valid. -/
def Actor.Written (isUuid : IsUuid) (actor : Actor) : Prop :=
  ∀ ledger, .persisted ledger ∈ actor.history → ledger.validate isUuid = .ok ()

/-- A happening that is not the record of a ledger. -/
theorem Actor.Written.record (written : actor.Written isUuid) {happening : Happening}
    (other : ∀ ledger, happening ≠ .persisted ledger) :
    (actor.record happening).Written isUuid := by
  intro ledger member
  rcases List.mem_cons.mp member with same | earlier
  · exact absurd same.symm (other ledger)
  · exact written ledger earlier

theorem Actor.Written.persisted (written : actor.Written isUuid) {ledger : HostLedger}
    (valid : ledger.validate isUuid = .ok ()) :
    (actor.record (.persisted ledger)).Written isUuid := by
  intro other member
  rcases List.mem_cons.mp member with same | earlier
  · cases same
    exact valid
  · exact written other earlier

theorem Change.written (ground : Ground isUuid scope.begun actor)
    (apart : Apart scope.begun actor.slots) (unclaimed : actor.Unclaimed scope)
    (written : actor.Written isUuid) (change : Change isUuid scope actor after) :
    after.Written isUuid := by
  have opened {project : String} {terminal : Model.TerminalDefinition} {previous : Option String}
      (starts : actor.Starts isUuid scope project terminal previous) :
      (actor.opened project terminal previous).Written isUuid := by
    refine Actor.Written.persisted written (ledger_valid (fun key slot found => ?_)
      (starts.apart ground apart unclaimed) (starts.small ground.tracked))
    have found : (actor.opened project terminal previous).slots[key]? = some slot := found
    rw [opened_get] at found
    split at found
    · rename_i new
      cases found
      exact new ▸ (Actor.Born.terminal starts (Nat.lt_succ_self _)).sound ground
    · split at found
      · cases found
      · exact ground.sound key slot found
  have reserved {project name : String} {purpose : SlotPurpose} {request : RunRequest}
      (admits : actor.Admits isUuid scope project purpose name request) :
      (actor.reserved project purpose name).Written isUuid := by
    refine Actor.Written.persisted written (ledger_valid (fun key slot found => ?_)
      (reserved_apart ground apart project purpose name)
      (Std.TreeMap.size_insert_le.trans admits.tracked))
    have found : (actor.reserved project purpose name).slots[key]? = some slot := found
    rw [reserved_get] at found
    split at found
    · rename_i new
      cases found
      exact new ▸ (Actor.Born.admitted admits (Nat.lt_succ_self _)).sound ground
    · exact ground.sound key slot found
  cases change with
  | opening opening =>
    cases opening with
    | drew | batched => exact written
    | saved => exact written.persisted (ledger_valid ground.sound apart ground.tracked)
    | started starts | startFailed starts => exact opened starts
  | admitted admits | declined admits => exact reserved admits
  | attached =>
    split
    · exact Actor.Written.record written nofun
    · exact written
  | signalled | leaderExited | leaderReaped | typed | finishSent | finishHeard | scanned | reported =>
    exact Actor.Written.record written nofun
  | slots | cells | jobs | gave | eventTaken | runsMarked | runsDied | launchTaken | launchDied
  | scanLost | git | closing | retired => exact written

/-- What may not be started stays so: a new session has no run, and the others are kept. -/
theorem Change.unclaimed (ground : Ground isUuid scope.begun actor)
    (unclaimed : actor.Unclaimed scope) (change : Change isUuid scope actor after) :
    after.Unclaimed scope := by
  intro project terminal allowed key slot found same begun
  rcases change.slot found with ⟨before, there, moved⟩ | born
  · have kept := ((ground.sound key before there).moved moved).2
    have was := unclaimed project terminal allowed key before there (kept.project.symm.trans same)
      begun
    rcases kept.terminalId with unchanged | renamed
    · exact unchanged.trans was
    · exact Option.some.inj (renamed.symm.trans begun)
  · rw [born.key, ground.unbegun] at begun
    cases begun

/-! ## Every run -/

structure World.Recorded (isUuid : IsUuid) (world : World) : Prop where
  grounded : world.Grounded isUuid
  apart : Apart world.begun world.actor.slots
  written : world.actor.Written isUuid

theorem recorded_reached (ground : Ground isUuid scope.begun origin)
    (apart : Apart scope.begun origin.slots) (written : origin.Written isUuid)
    (unclaimed : origin.Unclaimed scope) (reached : Reached isUuid scope origin actor) :
    Apart scope.begun actor.slots ∧ actor.Written isUuid ∧ actor.Unclaimed scope := by
  induction reached with
  | refl => exact ⟨apart, written, unclaimed⟩
  | tail before change inductionHypothesis =>
    obtain ⟨apart, written, unclaimed⟩ := inductionHypothesis
    have ground := ground.reached before
    exact ⟨change.apart ground apart unclaimed, change.written ground apart unclaimed written,
      change.unclaimed ground unclaimed⟩

/-- A request or a tick starts no terminal under the id of a run that was begun for a session of
    its project and is not its terminal yet. -/
def Unpaired (world : World) (event : HostEvent) : Prop :=
  event.inside = true → ∀ project terminal, event.Starts world.actor project terminal →
    ∀ (key : String) (slot : Slot), world.actor.slots[key]? = some slot →
      slot.info.projectId = project → world.begun key = some terminal →
        slot.info.terminalId = terminal

theorem World.Recorded.step {world later : World} {event : HostEvent}
    (recorded : world.Recorded isUuid) (unpaired : Unpaired world event)
    (step : World.Step isUuid formats world event later) : later.Recorded isUuid := by
  obtain ⟨grounded, apart, written⟩ := recorded
  have kept := World.Step.grounded grounded step
  cases inside : event.inside with
  | true =>
    obtain ⟨reached, begun⟩ :=
      @World.Step.reached _ _ _ _ _ True grounded (.inl trivial) inside step
    have unclaimed : world.actor.Unclaimed (event.may world True) := unpaired inside
    obtain ⟨apart, written, -⟩ :=
      recorded_reached grounded.ground apart written unclaimed reached
    exact ⟨kept, begun ▸ apart, written⟩
  | false =>
    have outside := step.outside inside
    refine ⟨kept, ?_, fun ledger member => written ledger (outside.history ▸ member)⟩
    cases step with
    | requested | ticked => cases inside
    | @began id project task operation session cancel asked new =>
      -- the id of the run has just been drawn
      have drawn : ∀ (key : String) (slot : Slot), world.actor.slots[key]? = some slot →
          ¬ slot.Claims world.begun key (world.actor.ids world.actor.nextId) := by
        rintro key slot found (same | begins)
        · exact (grounded.ground.foreign key slot found).2 _ (Nat.le_refl _) same.symm
        · exact (grounded.ground.begins key _ begins).1 _ (Nat.le_refl _) rfl
      have only {key : String} {slot : Slot} {terminal : String}
          (claims : slot.Claims (Function.update world.begun session
            (some (world.actor.ids world.actor.nextId))) key terminal) :
          slot.Claims world.begun key terminal ∨
            key = session ∧ terminal = world.actor.ids world.actor.nextId := by
        rcases claims with same | begins
        · exact .inl (.inl same)
        · rw [Function.update_apply] at begins
          split at begins
          · exact .inr ⟨‹_›, (Option.some.inj begins).symm⟩
          · exact .inl (.inr begins)
      intro one other slot second terminal here there project claims also
      rcases only claims with before | ⟨rfl, rfl⟩
      · rcases only also with after | ⟨-, rfl⟩
        · exact apart one other slot second terminal here there project before after
        · exact absurd before (drawn one slot here)
      · rcases only also with after | ⟨rfl, -⟩
        · exact absurd after (drawn other second there)
        · rfl
    | launched | launchDied | worked | timedOut | cellSet | runsDied | scanned | scanDied
    | gitMoved => exact apart

theorem World.Initial.recorded {world : World} (initial : World.Initial isUuid formats world) :
    world.Recorded isUuid := by
  obtain ⟨hostInstance, records, new⟩ := initial.new
  have ground := initial.ground
  refine ⟨⟨ground, initial.workers⟩, ?_, fun ledger member => ?_⟩
  · -- a run of the earlier host is the terminal of its session
    have only {key : String} {slot : Slot} {terminal : String}
        (found : world.actor.slots[key]? = some slot)
        (claims : slot.Claims world.begun key terminal) : slot.info.terminalId = terminal := by
      refine claims.elim id fun begins => ?_
      rw [initial.begun, found] at begins
      refine ((ground.sound key slot found).run terminal ?_).1
      have named : slot.purpose.runId = some terminal := begins
      cases purpose : slot.purpose <;> simp_all [SlotPurpose.runId]
    intro one other slot second terminal here there project claims also
    exact new.slots.pairs one other slot second here there project
      ((only here claims).trans (only there also).symm)
  · rw [new.history] at member
    cases member

theorem recorded : ((hostSystem isUuid formats).restrict Unpaired).Invariant
    (World.Recorded isUuid) where
  initial _ initial := World.Initial.recorded initial
  preserved _ _ _ recorded step := World.Recorded.step recorded step.2 step.1

/-- In every run in which no terminal is started under the id of a run of its project that is not
    shown yet, the ledger of the sessions is valid, and so was all that was ever written; what
    is left to fail is the write. -/
theorem ledger_writable {world : World}
    (reachable : ((hostSystem isUuid formats).restrict Unpaired).Reachable world) :
    world.actor.ledger.validate isUuid = .ok () ∧ world.actor.Written isUuid ∧
      ∀ (answers : Nat → HostAnswers) (asked : Nat),
        (persist isUuid answers asked world.actor).result = (answers asked).write := by
  have kept : world.Recorded isUuid := recorded.reachable reachable
  have valid := ledger_valid kept.grounded.ground.sound kept.apart kept.grounded.ground.tracked
  refine ⟨valid, kept.written, fun answers asked => ?_⟩
  rw [persist_valid valid]

/-- Where no run has been begun there is nothing to pair with. -/
theorem unpaired_of_unbegun {world : World} (unbegun : ∀ session, world.begun session = none)
    (event : HostEvent) : Unpaired world event := by
  intro _ project terminal _ key slot _ _ begun
  rw [unbegun] at begun
  cases begun

theorem ledger_writable_sample : sampleTicked.world.actor.slots.size = 1 ∧
    sampleTicked.world.actor.ledger.validate sampleUuids = .ok () := by
  have start := System.Reachable.start (S := (hostSystem sampleUuids Git.sampleFormats).restrict
    Unpaired) sampleStart_initial.1
  have reachable := (start.step ⟨sampleAsked_step, unpaired_of_unbegun (fun _ => rfl) _⟩).step
    ⟨sampleTicked_step, unpaired_of_unbegun (fun _ => rfl) _⟩
  exact ⟨by decide +kernel, (ledger_writable reachable).1⟩

/-! ### A terminal under the id of a run -/

/-- Another terminal is started under the id of the run. -/
def sampleTwice : World :=
  sampleBegun.serve (.startTransient "project" ⟨"aaaa", "other", ["/"], [], false, none⟩ false) 0

/-- The run of the sample, as its worker reports it. -/
def sampleRun : RunInfo where
  runId := "aaaa"
  operationId := "operation"
  projectId := "project"
  taskId := "task"
  name := "task"
  sessionId := some "a"
  state := .running
  definitionRevision := 0
  launchDigest := ""
  initializationDigest := ""
  cwd := ["/"]
  sourceRoots := []
  buildOutputs := []
  startedAtMs := 0
  finishedAtMs := none
  timeoutSeconds := none
  timeoutRequested := false
  cancelRequested := false
  cleanupConfirmed := false
  exitCode := none
  signal := none
  steps := []
  structuredResult := none
  pinned := false
  events := none
  sourceStart := ⟨none, none, none, none, none, none⟩
  sourceEnd := none
  sourceChanged := none
  artifact := ⟨none, none, none, false, none, none, none⟩
  log := ⟨"aaaa", 0, .recording, 0, 0, 0, true, none⟩
  error := none

/-- The run has been started. -/
def sampleStarted : RunEvent :=
  ⟨some "aaa", some "a", some ⟨some 7, true, [], 0, "", true⟩, some sampleRun,
    .ok (.started sampleRun false), none, true⟩

def sampleWork : Work := .request "aaa" (.start "project" "task" "operation") (some "a") "a"

/-- The worker has reported the run. -/
def World.report (world : World) : World :=
  { world with
    actor.runs.working := world.actor.runs.working.erase sampleWork
    actor.runs.events := world.actor.runs.events ++ [sampleStarted] }

/-- The session of the run has been given its id. -/
def samplePaired : World := sampleTwice.report.tick 0

theorem World.report_step {world : World} (taken : sampleWork ∈ world.actor.runs.working)
    (named : world.begun "a" = some "aaaa") :
    World.Step sampleUuids Git.sampleFormats world (.worked sampleWork sampleStarted)
      world.report :=
  .worked taken (.started named ⟨rfl, by decide⟩ (.inl rfl) nofun)

theorem samplePaired_reachable :
    (hostSystem sampleUuids Git.sampleFormats).Reachable samplePaired := by
  have start : sampleStart.world.Grounded sampleUuids := grounded.initial sampleStart_initial.1
  have admitted := sampleAdmitted_step.grounded start
  have begun := sampleBegun_step.grounded admitted
  have ids : sampleBegun.actor.ids = sampleIds := sampleAdmitted_ids
  have foreign : sampleBegun.actor.Foreign "aaaa" := by
    intro index beyond same
    rw [show sampleBegun.actor.nextId = 4 by decide +kernel] at beyond
    rw [ids] at same
    have length := congrArg (·.toList.length) same
    simp [sampleIds] at length
    omega
  have twice : World.Step sampleUuids Git.sampleFormats sampleBegun _ sampleTwice :=
    World.serve_step (by decide +kernel) ids (by rintro _ ⟨⟩; exact foreign)
  have reported := @World.report_step sampleTwice (by decide +kernel) (by decide +kernel)
  have still : sampleTwice.report.actor.ids = sampleIds := (twice.ids begun).trans ids
  exact ((((System.Reachable.start sampleStart_initial.1).step sampleAdmitted_step).step
    sampleBegun_step).step twice).step reported |>.step (World.tick_step still)

/-- A client starts a terminal under the id of a run before the run is shown: no ledger can be
    written any more. -/
theorem ledger_pair : ∃ world : World,
    (hostSystem sampleUuids Git.sampleFormats).Reachable world ∧
      world.actor.ledger.validate sampleUuids ≠ .ok () :=
  ⟨samplePaired, samplePaired_reachable, by decide +kernel⟩

end Idk.Host
