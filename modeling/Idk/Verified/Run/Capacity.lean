import Idk.Verified.Run.CrashSafety

/-!
# Room for every pending start

`begin_reserve` admits a start only while the unpinned history and the starts still
pending leave room, so that committing it later cannot overflow the ledger.
Unpinning makes room in the history without counting the pending starts.

**Main results:**

- `Room.effect`: every effect keeps the room, where unpinning respects it.
- `reservation_keeps_room`: the reachable worlds of hosts that unpin only with room.
- `unpinning_overflows_reservations`: unpinning beside pending starts takes a place
  that was reserved.
-/

namespace Idk.Verified

open Idk.Logic (System)
open Idk.Logic.Procedure (Ensures)
open Relation (ReflTransGen)
open RunRegistry

/-- The bounds of the ledger hold, also once all pending starts are committed. -/
structure Room (tickets : BTreeMap BeginTicket) (registry : RunRegistry) : Prop where
  unpinned : registry.unpinned + registry.pendingStarts.length ≤ historyLimit
  pinned : registry.runs.countP (·.pinned) ≤ pinnedRunLimit
  retired : registry.retired.length ≤ runRecordLimit
  pending : ∀ runId (ticket : BeginTicket), tickets[runId]? = some ticket →
    ∃ pending ∈ registry.pendingStarts, pending.runId = runId

/-- Unpinning and committing only where one more record fits beside the pending starts. -/
def roomy : May where
  unpin registry := registry.isFull = false
  commit registry := registry.isFull = false

theorem isFull_eq_false {registry : RunRegistry} :
    registry.isFull = false ↔ registry.unpinned + registry.pendingStarts.length < historyLimit := by
  simp [isFull]

/-! ## Counting records -/

section Counting

variable {α : Type} {test counted : α → Bool} {change : α → α}

/-- One revision adds at most one record of any kind. -/
theorem countP_updateFirst_le_succ (list : List α) :
    (updateFirst test change list).countP counted ≤ list.countP counted + 1 := by
  induction list with
  | nil => simp [updateFirst]
  | cons head rest inductionHypothesis =>
    by_cases here : test head = true
    · simp only [updateFirst, here, ↓reduceIte, List.countP_cons]
      split <;> split <;> omega
    · simp only [updateFirst, here, Bool.false_eq_true, ↓reduceIte, List.countP_cons]
      omega

/-- A revision that does not make its record one of the counted adds none. -/
theorem countP_updateFirst_le {list : List α}
    (kept : ∀ value, list.find? test = some value → counted (change value) = true →
      counted value = true) :
    (updateFirst test change list).countP counted ≤ list.countP counted := by
  induction list with
  | nil => simp [updateFirst]
  | cons head rest inductionHypothesis =>
    by_cases here : test head = true
    · have keeps := kept head (List.find?_cons_of_pos here)
      simp only [updateFirst, here, ↓reduceIte, List.countP_cons]
      by_cases revised : counted (change head) = true
      · simp [revised, keeps revised]
      · simp [revised]
    · simp only [updateFirst, here, Bool.false_eq_true, ↓reduceIte, List.countP_cons]
      have fewer := inductionHypothesis fun value found =>
        kept value (by rw [List.find?_cons_of_neg here]; exact found)
      omega

end Counting

/-! ## Effects -/

section Effects

variable {formats : Formats} {tickets : BTreeMap BeginTicket} {before after : RunRegistry}

/-- Room depends on the records' pins, the journal and the pending starts. -/
theorem Room.fewer (room : Room tickets before)
    (unpinned : after.unpinned ≤ before.unpinned)
    (pinned : after.runs.countP (·.pinned) ≤ before.runs.countP (·.pinned))
    (retired : after.retired.length ≤ before.retired.length)
    (pending : after.pendingStarts = before.pendingStarts) : Room tickets after := by
  have total := room.unpinned
  have pins := room.pinned
  have journal := room.retired
  refine ⟨?_, by omega, by omega, ?_⟩
  · rw [pending]
    omega
  · rw [pending]
    exact room.pending

/-- Revising a record without changing its pin. -/
theorem Room.revised (room : Room tickets before) {runId : String} {change : RunInfo → RunInfo}
    {run : RunInfo} (found : before.find runId = some run)
    (same : (change run).pinned = run.pinned) : Room tickets (revise runId change before) := by
  have only (other : RunInfo) (again : before.find runId = some other) :
      (change other).pinned = other.pinned := by
    rw [Option.some.inj (again.symm.trans found)]
    exact same
  apply room.fewer
  · apply countP_updateFirst_le
    intro other again counted
    rw [only other again] at counted
    exact counted
  · apply countP_updateFirst_le
    intro other again counted
    rw [only other again] at counted
    exact counted
  · exact Nat.le_refl _
  · rfl

theorem Room.same (room : Room tickets before) (runs : after.runs = before.runs)
    (retired : after.retired = before.retired)
    (pending : after.pendingStarts = before.pendingStarts) : Room tickets after := by
  apply room.fewer _ _ _ pending
  · rw [RunRegistry.unpinned, runs, RunRegistry.unpinned]
  · rw [runs]
  · rw [retired]

theorem Room.retired_step (room : Room tickets before) (step : Retired formats before after) :
    Room tickets after := by
  cases step with
  | @intro index old entry answers here rotatable space valid =>
    have shorter : (before.runs.eraseIdx index).Sublist before.runs := List.eraseIdx_sublist _ _
    have total := room.unpinned
    have unpinned := shorter.countP_le (p := (!·.pinned))
    have pinned := shorter.countP_le (p := (·.pinned))
    have pins := room.pinned
    refine ⟨?_, ?_, ?_, room.pending⟩
    · show (before.runs.eraseIdx index).countP (!·.pinned) + before.pendingStarts.length ≤ _
      unfold RunRegistry.unpinned at total
      omega
    · show (before.runs.eraseIdx index).countP (·.pinned) ≤ _
      omega
    · show (before.retired ++ [entry]).length ≤ _
      simp only [List.length_append, List.length_singleton]
      unfold historyLimit at space
      omega

/-- Every effect keeps the room, when unpinning and committing respect it. -/
theorem Room.effect (room : Room tickets before)
    (step : Effect formats tickets roomy before after) : Room tickets after := by
  cases step with
  | cleaned step =>
    cases step with
    | @intro entry rest answers first valid =>
      refine room.fewer (Nat.le_refl _) (Nat.le_refl _) ?_ rfl
      rw [first]
      exact Nat.le_succ _
  | retired step => exact room.retired_step step
  | persisted valid => exact room.same rfl rfl rfl
  | published clear => exact room.same rfl rfl rfl
  | granted reserved => exact room.same rfl rfl rfl
  | @pended pending space _ =>
    have free := isFull_eq_false.mp space
    refine ⟨?_, room.pinned, room.retired, ?_⟩
    · show before.unpinned + (before.pendingStarts ++ [pending]).length ≤ _
      simp only [List.length_append, List.length_singleton]
      omega
    · intro runId ticket held
      obtain ⟨other, member, named⟩ := room.pending runId ticket held
      exact ⟨other, List.mem_append_left _ member, named⟩
  | @unpended runId taken =>
    have fewer := List.length_filter_le (fun pending : PendingStart => pending.runId != runId)
      before.pendingStarts
    have total := room.unpinned
    refine ⟨?_, room.pinned, room.retired, ?_⟩
    · show before.unpinned + (before.pendingStarts.filter (·.runId != runId)).length ≤ _
      omega
    · intro id ticket held
      obtain ⟨pending, member, named⟩ := room.pending id ticket held
      refine ⟨pending, List.mem_filter.mpr ⟨member, ?_⟩, named⟩
      simp only [named, bne_iff_ne, ne_eq]
      intro same
      rw [same, taken] at held
      cases held
  | dropped floating => exact room.same rfl rfl rfl
  | @committed ticket run entry answers floating allowed named starting observed leased valid =>
    have free := isFull_eq_false.mp allowed
    have pins := room.pinned
    refine ⟨?_, ?_, room.retired, room.pending⟩
    · show (before.runs ++ [run]).countP (!·.pinned) + before.pendingStarts.length ≤ _
      unfold RunRegistry.unpinned at free
      simp only [List.countP_append, List.countP_singleton, starting.2.2]
      simp only [Bool.not_false, ↓reduceIte]
      omega
    · show (before.runs ++ [run]).countP (·.pinned) ≤ _
      simp only [List.countP_append, List.countP_singleton, starting.2.2]
      simpa using pins
  | lived found live same still => exact room.revised found same.2.1
  | acknowledged inactive allowed found lost valid =>
    exact (room.revised found rfl).same rfl rfl rfl
  | ended owned same finishing => exact room.same rfl rfl rfl
  | concluded owned finishing found same stopped open_ => exact room.revised found same.2
  | settled found agrees durable =>
    unfold settle
    split
    · exact room
    · split <;> exact room.same rfl rfl rfl
  | @pinned runId pinned run answers found stopped confirmed toggles space valid =>
    have kept : Room tickets (revise runId (·.withPin pinned) before) := by
      have total := room.unpinned
      cases pinned with
      | true =>
        -- Pinning moves a record from one bound to the other, where there is space.
        have more : (revise runId (·.withPin true) before).runs.countP (·.pinned) ≤
            before.runs.countP (·.pinned) + 1 := countP_updateFirst_le_succ _
        have fewer : (revise runId (·.withPin true) before).unpinned ≤ before.unpinned :=
          countP_updateFirst_le fun _ _ counted => by simp [RunInfo.withPin] at counted
        have free : before.runs.countP (·.pinned) < pinnedRunLimit := space
        refine ⟨?_, by omega, room.retired, room.pending⟩
        show (revise runId (·.withPin true) before).unpinned + before.pendingStarts.length ≤ _
        omega
      | false =>
        have more : (revise runId (·.withPin false) before).unpinned ≤ before.unpinned + 1 :=
          countP_updateFirst_le_succ _
        have fewer : (revise runId (·.withPin false) before).runs.countP (·.pinned) ≤
            before.runs.countP (·.pinned) :=
          countP_updateFirst_le fun _ _ counted => by simp [RunInfo.withPin] at counted
        have free := isFull_eq_false.mp space.2
        have pins := room.pinned
        refine ⟨?_, by omega, room.retired, room.pending⟩
        show (revise runId (·.withPin false) before).unpinned + before.pendingStarts.length ≤ _
        omega
    exact kept.same rfl rfl rfl

theorem Room.effects (room : Room tickets before)
    (steps : ReflTransGen (Effect formats tickets roomy) before after) : Room tickets after := by
  induction steps with
  | refl => exact room
  | tail _ step inductionHypothesis => exact inductionHypothesis.effect step

end Effects

/-! ## Calls -/

/-- A run is unpinned only while no start is pending or one more record has room. -/
def UnpinsWithRoom (world : RunWorld) (invocation : Invocation) : Prop :=
  ∀ runId, invocation.call = .pinResult runId false →
    (∃ run, world.registry.find runId = some run ∧ run.pinned = true) →
    world.registry.pendingStarts = [] ∨ world.registry.isFull = false

/-- What allows an unpinning to go ahead, and stays true while history is removed. -/
structure Calm (runId : String) (registry : RunRegistry) : Prop where
  unique : (registry.runs.map (·.runId)).Nodup
  room : (∃ run, registry.find runId = some run ∧ run.pinned = true) →
    registry.pendingStarts = [] ∨ registry.isFull = false

theorem Retention.fewer {formats : Formats} {before after : RunRegistry}
    (step : Retention formats before after) : after.runs.Sublist before.runs := by
  cases step with
  | inl cleaned =>
    rw [cleaned.frame.1]
  | inr retired =>
    cases retired
    exact List.eraseIdx_sublist _ _

theorem Calm.kept {formats : Formats} {runId : String} {before after : RunRegistry}
    (calm : Calm runId before) (step : Retention formats before after) : Calm runId after := by
  have shorter := Retention.fewer step
  refine ⟨List.Nodup.sublist (shorter.map _) calm.unique, ?_⟩
  intro found
  obtain ⟨run, search, pinned⟩ := found
  obtain ⟨member, named⟩ := find_runId search
  have earlier := find_eq_some calm.unique (shorter.subset member)
  rw [named] at earlier
  rw [step.pending]
  cases calm.room ⟨run, earlier, pinned⟩ with
  | inl none => exact .inl none
  | inr free =>
    right
    have space := isFull_eq_false.mp free
    have unpinned := shorter.countP_le (p := (!·.pinned))
    apply isFull_eq_false.mpr
    rw [step.pending]
    unfold RunRegistry.unpinned at space ⊢
    omega

/-- A start's own pending record makes room for its run. -/
theorem Room.commit_space {tickets : BTreeMap BeginTicket} {registry : RunRegistry}
    (room : Room tickets registry) {runId : String} {ticket : BeginTicket}
    (held : tickets[runId]? = some ticket) : (registry.withoutPending runId).isFull = false := by
  obtain ⟨pending, member, named⟩ := room.pending runId ticket held
  have dropped : (registry.pendingStarts.filter (·.runId != runId)).length <
      registry.pendingStarts.length := by
    apply List.length_filter_lt_length_iff_exists.mpr
    exact ⟨pending, member, by simp [named]⟩
  have total := room.unpinned
  apply isFull_eq_false.mpr
  show registry.unpinned + (registry.pendingStarts.filter (·.runId != runId)).length < _
  omega

theorem roomy_permits {formats : Formats} {world : RunWorld} {invocation : Invocation}
    (sound : world.Sound) (room : Room world.tickets world.registry)
    (enabled : world.Enabled formats invocation) (condition : UnpinsWithRoom world invocation) :
    roomy.Permits world invocation.call := by
  obtain ⟨call, answers⟩ := invocation
  cases call with
  | beginCommit runId sourceStart =>
    obtain ⟨ticket, held, _⟩ := enabled
    exact room.commit_space held
  | pinResult runId pinned =>
    cases pinned with
    | true => trivial
    | false =>
      refine ⟨Calm runId, ⟨sound.durability.unique, condition runId rfl⟩,
        fun _ _ _ calm step => calm.kept step, ?_⟩
      intro registry run calm found pinned space
      cases calm.room ⟨run, found, pinned⟩ with
      | inr free => exact free
      | inl none =>
        apply isFull_eq_false.mpr
        rw [none]
        simpa [isHistoryFull] using space
  | beginReserve plan operationId parallel => exact fun _ => trivial
  | finishObserved runId ending => exact fun _ _ _ => trivial
  | _ => trivial

theorem Room.took {formats : Formats} {world next : RunWorld} {invocation : Invocation}
    (room : Room world.tickets world.registry)
    (took : world.Took formats roomy invocation next) : Room next.tickets next.registry := by
  cases took with
  | effects steps => exact room.effects steps
  | @reserved _ _ _ before registry ticket called earlier steps reserving unused =>
    have kept := room.effects steps
    refine { kept with pending := ?_ }
    intro runId other held
    rw [Std.TreeMap.getElem?_insert] at held
    split at held
    · rename_i same
      rw [reserving.pending]
      exact ⟨_, List.mem_append_right _ List.mem_cons_self, by simpa using same⟩
    · exact kept.pending runId other held
  | @returned runId ticket registry held steps outcome =>
    have without : Room (world.tickets.erase runId) world.registry := by
      refine { room with pending := ?_ }
      intro id other found
      rw [Std.TreeMap.getElem?_erase] at found
      split at found
      · cases found
      · exact room.pending id other found
    exact without.effects steps
  | gated recorded ready mutating => exact room.same rfl rfl rfl

/-! ## Hosts -/

/-- Hosts whose calls unpin with room only. -/
def unpinningSystem (formats : Formats) : System Life LifeEvent :=
  (lifeSystem formats).restrict fun life event =>
    match life, event with
    | .up world, .called invocation => UnpinsWithRoom world invocation
    | _, _ => True

def Life.HasRoom : Life → Prop
  | .up world => Room world.tickets world.registry
  | .down _ => True

/-- The stored records count as the records in memory do. -/
theorem ledger_countP {registry : RunRegistry} (unique : (registry.runs.map (·.runId)).Nodup)
    (answer : Answers) (view : RunInfo → Bool)
    (cored : ∀ run : RunInfo, view run.core = view run) :
    (registry.ledger answer).runs.countP view = registry.runs.countP view := by
  have same := congrArg (List.countP id) (list_map unique answer view cored)
  simp only [List.countP_map] at same
  exact same

/-- A ledger that passes its check leaves room in memory. -/
theorem stored_room {formats : Formats} {disk : List RunLedger} {registry : RunRegistry}
    {answer : Answers} (loaded : Loaded formats disk registry)
    (unique : (registry.runs.map (·.runId)).Nodup)
    (valid : (registry.ledger answer).validate formats = .ok ()) :
    Room ∅ (stored (registry.ledger answer) registry) := by
  have limits := RunLedger.validate_limits valid
  have journal := RunLedger.validate_retired valid
  simp only [RunLedger.withinLimits, Bool.and_eq_true, decide_eq_true_eq] at limits
  rw [ledger_countP unique answer (!·.pinned) fun _ => rfl,
    ledger_countP unique answer (·.pinned) fun _ => rfl] at limits
  refine ⟨?_, limits.1.2, journal, ?_⟩
  · show registry.runs.countP (!·.pinned) + registry.pendingStarts.length ≤ _
    rw [loaded.pending]
    exact limits.1.1.2
  · intro _ _ held
    simp at held

theorem opened_room {formats : Formats} {disk : List RunLedger} {answers : Nat → Answers}
    (recoverable : ∀ part, part <:+ disk → Recoverable part)
    (opened : (openDisk formats disk answers).result = .ok ()) :
    Room ∅ (openDisk formats disk answers).state := by
  cases openDisk_cases formats disk answers with
  | inl failed =>
    obtain ⟨_, failed, _⟩ := failed
    rw [opened] at failed
    cases failed
  | inr opening =>
    obtain ⟨registry, answer, loaded, valid, steps⟩ := opening
    have room := stored_room loaded (loaded.draft recoverable).unique valid
    exact room.effects (Retention.run_effects steps)

theorem life_room (formats : Formats) : (unpinningSystem formats).Invariant fun life =>
    Life.Sound life ∧ Life.HasRoom life where
  initial life initial := by
    refine ⟨(life_sound formats).initial initial, ?_⟩
    cases life with
    | up world => cases initial
    | down disk => trivial
  preserved before event after holds taken := by
    obtain ⟨sound, room⟩ := holds
    obtain ⟨step, condition⟩ := taken
    refine ⟨(life_sound formats).preserved sound step, ?_⟩
    cases step with
    | opened succeeded => exact opened_room sound succeeded
    | called enabled =>
      have permits := roomy_permits sound room enabled condition
      exact Room.took room (RunWorld.Sound.perform_took sound enabled permits)
    | cut enabled earlier reached => trivial
    | cutOpening earlier reached => trivial

/-- The ledger that a commit of `ticket` would write. -/
def commitLedger (registry : RunRegistry) (ticket : BeginTicket)
    (sourceStart : SourceObservation) (log : LogDescriptor) (now : Nat) (answers : Answers) :
    RunLedger :=
  let registry := registry.withoutPending ticket.runId
  (registry.appended (newRun registry ticket sourceStart log now)).ledger answers

theorem Room.commitLedger_within {world : RunWorld} (sound : world.Sound)
    (room : Room world.tickets world.registry) {runId : String} {ticket : BeginTicket}
    (held : world.tickets[runId]? = some ticket) (sourceStart : SourceObservation)
    (log : LogDescriptor) (now : Nat) (answers : Answers) :
    (commitLedger world.registry ticket sourceStart log now answers).withinLimits = true ∧
      (commitLedger world.registry ticket sourceStart log now answers).retired.length ≤
        runRecordLimit := by
  refine ⟨?_, room.retired⟩
  have floating := sound.floating held
  obtain ⟨named, _⟩ := sound.tickets runId ticket held
  have space := isFull_eq_false.mp (room.commit_space held)
  rw [← named] at space
  have unique : (((world.registry.withoutPending ticket.runId).appended
      (newRun (world.registry.withoutPending ticket.runId) ticket sourceStart log now)).runs.map
        (·.runId)).Nodup := by
    simp only [appended, List.map_append, List.map_cons, List.map_nil]
    apply List.nodup_append.mpr
    refine ⟨sound.durability.unique, List.nodup_singleton _, ?_⟩
    intro left member right last
    obtain ⟨run, among, rfl⟩ := List.mem_map.mp member
    rw [List.mem_singleton.mp last]
    exact floating.unseen run among
  unfold commitLedger
  simp only [RunLedger.withinLimits, Bool.and_eq_true, decide_eq_true_eq]
  rw [ledger_countP unique answers (!·.pinned) fun _ => rfl,
    ledger_countP unique answers (·.pinned) fun _ => rfl]
  refine ⟨⟨⟨rfl, ?_⟩, ?_⟩, rfl⟩
  · -- The new record is unpinned and takes the place its pending start kept.
    show (world.registry.runs ++ [_]).countP (fun run : RunInfo => !run.pinned) ≤ runRecordLimit
    rw [List.countP_append]
    have one : [newRun (world.registry.withoutPending ticket.runId) ticket sourceStart log
        now].countP (!·.pinned) = 1 := rfl
    rw [one]
    have unpinned : world.registry.runs.countP (!·.pinned) =
        (world.registry.withoutPending ticket.runId).unpinned := rfl
    unfold historyLimit at space
    omega
  · show (world.registry.runs ++ [_]).countP (fun run : RunInfo => run.pinned) ≤ pinnedRunLimit
    rw [List.countP_append]
    exact room.pinned

/-- Where runs are unpinned with room only, the unpinned history and the pending starts
    never exceed the limit, and a reserved start always has room in the ledger. -/
theorem reservation_keeps_room {formats : Formats} {world : RunWorld}
    (reachable : (unpinningSystem formats).Reachable (.up world)) :
    world.registry.unpinned + world.registry.pendingStarts.length ≤ historyLimit ∧
      ∀ (runId : String) (ticket : BeginTicket), world.tickets[runId]? = some ticket →
        ∀ sourceStart log now answers,
        (commitLedger world.registry ticket sourceStart log now answers).withinLimits = true ∧
        (commitLedger world.registry ticket sourceStart log now answers).retired.length ≤
          runRecordLimit := by
  obtain ⟨sound, room⟩ := (life_room formats).reachable reachable
  refine ⟨room.unpinned, ?_⟩
  intro runId ticket held sourceStart log now answers
  exact Room.commitLedger_within sound room held sourceStart log now answers

theorem reservation_keeps_room_sample :
    sampleReserved.registry.unpinned + sampleReserved.registry.pendingStarts.length ≤
      historyLimit := by
  have opened : (unpinningSystem sampleFormats).Reachable (.up (sampleOpen [])) :=
    ⟨.down [], [.opened fun _ => sampleAnswers "run"], .inl rfl,
      System.Run.single ⟨.opened rfl, trivial⟩⟩
  have reserved : (unpinningSystem sampleFormats).Reachable (.up sampleReserved) :=
    opened.step ⟨.called sampleReserve_enabled, nofun⟩
  exact (reservation_keeps_room reserved).1

/-! ## Unpinning beside pending starts -/

/-- A finished run of the past, pinned. -/
def pastRun : RunInfo where
  runId := "past"
  operationId := "past"
  projectId := "project"
  taskId := "task"
  name := "build"
  sessionId := none
  state := .succeeded
  definitionRevision := 1
  launchDigest := sampleDigest
  initializationDigest := sampleDigest
  cwd := ["/", "work"]
  sourceRoots := []
  buildOutputs := []
  startedAtMs := 0
  finishedAtMs := none
  timeoutSeconds := none
  timeoutRequested := false
  cancelRequested := false
  cleanupConfirmed := true
  exitCode := none
  signal := none
  steps := [{ index := 0, name := "build", exitCode := none }]
  structuredResult := none
  pinned := true
  events := none
  sourceStart := sampleObservation
  sourceEnd := none
  sourceChanged := none
  artifact :=
    { path := none, fromTask := none, fromRun := none, verifiedBytes := false, snapshot := none,
      snapshotError := none, observedAtMs := none }
  log := { sampleLog "past" with state := .disabled }
  error := none

def pastLedger : RunLedger where
  schema := 2
  runs := [pastRun]
  retired := []

/-- The identity of the `index`-th start. -/
def startId (index : Nat) : String := String.singleton (Char.ofNat (200 + index))

/-- A plan without a repository. -/
def loosePlan (projectId taskId : String) : TaskLaunchPlan :=
  { samplePlan projectId taskId with repository := none }

def looseReserve (index : Nat) : Invocation where
  call := .beginReserve (loosePlan "project" "task") (startId index) true
  answers _ :=
    { sampleAnswers (startId index) with
      launchPlan := fun projectId taskId _ => .ok ⟨loosePlan projectId taskId, rfl, rfl⟩ }

/-- Beside one pinned run, `count` starts are pending. -/
def crowded : Nat → RunWorld
  | 0 => sampleOpen [pastLedger]
  | count + 1 => (crowded count).perform sampleFormats (looseReserve count)

def crowdedUnpinned : RunWorld :=
  (crowded historyLimit).perform sampleFormats (sampleInvocation (.pinResult "past" false))

theorem startId_inj {left right : Nat} (first : left < historyLimit) (second : right < historyLimit)
    (same : startId left = startId right) : left = right := by
  have scalar {index : Nat} (bound : index < historyLimit) :
      (Char.ofNat (200 + index)).toNat = 200 + index := by
    simp only [historyLimit, runRecordLimit] at bound
    rw [Char.ofNat, dif_pos (.inl (by omega))]
    rfl
  have equal := congrArg Char.toNat (String.singleton_inj.mp same)
  rw [scalar first, scalar second] at equal
  omega

theorem startId_ne_past (index : Nat) : startId index ≠ "past" := by
  intro same
  have short := congrArg String.length same
  simp only [startId, String.length_singleton] at short
  exact absurd short (by decide)

def loosePending (index : Nat) : PendingStart :=
  { runId := startId index, projectId := "project", taskId := "task",
    operationId := startId index, buildOutputs := [] }

def looseTicket (index : Nat) : BeginTicket :=
  { runId := startId index, plan := loosePlan "project" "task", operationId := startId index,
    outputs := [], lease := none }

/-- Beside the run of the past, nothing but `count` pending starts. -/
structure Crowd (count : Nat) (registry : RunRegistry) : Prop where
  runs : registry.runs = [pastRun]
  retired : registry.retired = []
  active : registry.active = ∅
  pending : registry.pendingStarts = (List.range count).map loosePending
  durable : ∀ ledger ∈ registry.durable, ∀ run ∈ ledger.runs, run.runId = "past"

theorem any_nothing {α : Type} (values : List α) : values.any (fun _ => false) = false := by
  simp [List.any_eq_false]

section Crowd

variable {answers : Nat → Answers} {registry : RunRegistry} {count : Nat}

theorem Crowd.fits (crowd : Crowd count registry) : registry.unpinned = 0 := by
  simp [RunRegistry.unpinned, crowd.runs, pastRun]

theorem Crowd.unknown (crowd : Crowd count registry) (bound : count < historyLimit) :
    registry.pendingStarts.any (·.operationId == startId count) = false := by
  rw [crowd.pending, List.any_eq_false]
  intro pending member
  obtain ⟨index, earlier, rfl⟩ := List.mem_map.mp member
  simp only [loosePending, beq_iff_eq]
  intro same
  have before := List.mem_range.mp earlier
  exact Nat.ne_of_lt before (startId_inj (Nat.lt_trans before bound) bound same)

/-- Nothing is cleaned up, expired or rotated. -/
theorem Crowd.upkeep (crowd : Crowd count registry) {full : RunRegistry → Bool} {message : String}
    (room : full registry = false) :
    Ensures answers (· = registry) (cleanupRetired sampleFormats) (fun _ => (· = registry))
      (fun _ => False) ∧
    Ensures answers (· = registry) (expireHistory sampleFormats) (fun _ => (· = registry))
      (fun _ => False) ∧
    Ensures answers (· = registry) (rotateWhile sampleFormats full message)
      (fun _ => (· = registry)) (fun _ => False) := by
  refine ⟨.thenRead ?_, .thenRead (.iterate ?_ _), .thenRead (.iterate ?_ _)⟩
  · rw [crowd.retired]
    exact .value fun _ same => same
  · refine .thenAsk fun asked => .thenRead ?_
    have none : (registry.runs.findIdx? fun run => registry.canRotate run &&
        run.finishedAtMs.any fun finished => retentionMs < (answers asked).now - finished) =
        none := by
      simp [crowd.runs, pastRun]
    rw [none]
    exact .done rfl
  · refine .thenRead ?_
    rw [room]
    exact .done rfl

theorem Crowd.admit (crowd : Crowd count registry) (bound : count < historyLimit) :
    Ensures (looseReserve count).answers (· = registry)
      (admitStart sampleFormats (loosePlan "project" "task") (startId count) true)
      (fun reply last => reply = .fresh (looseTicket count) ∧ Crowd (count + 1) last)
      (fun _ => False) := by
  have room : registry.isFull = false := by
    simp only [RunRegistry.isFull, crowd.fits, crowd.pending, List.length_map, List.length_range]
    simpa using bound
  obtain ⟨cleaned, expired, rotated⟩ := crowd.upkeep room
  refine .thenRead (.thenCheckOr (fun _ failed => ?_) fun _ _ =>
    .thenCheckOr (fun _ failed => ?_) fun _ _ => .thenAsk fun asked =>
    .thenCheckOr (fun _ => nofun) fun outputs none => ?_)
  · simp [any_nothing] at failed
  · simp [crowd.runs, pastRun, unresolved] at failed
  cases none
  refine .thenCheckOr (fun _ failed => ?_) fun _ _ => .thenCheckOr (fun _ failed => ?_) fun _ _ => ?_
  · simp [overlaps, any_nothing] at failed
  · simp [overlaps, any_nothing] at failed
  refine .thenCall cleaned rfl fun _ _ same => .thenCall expired same fun _ _ same =>
    .thenCall rotated same fun _ _ same => .thenAsk fun asked => ?_
  subst same
  refine .thenValue (.thenUpdate (.done ⟨rfl, crowd.runs, crowd.retired, crowd.active, ?_,
    crowd.durable⟩))
  simp only [crowd.pending, List.range_succ, List.map_append]
  rfl

/-- A further start is reserved. -/
theorem Crowd.reserve (crowd : Crowd count registry) (bound : count < historyLimit) :
    Ensures (looseReserve count).answers (· = registry)
      (beginReserve sampleFormats (loosePlan "project" "task") (startId count) true)
      (fun reply last => reply = .fresh (looseTicket count) ∧ Crowd (count + 1) last)
      (fun _ => False) := by
  have unrecorded : registry.runs.find? (·.operationId == startId count) = none := by
    simp [crowd.runs, pastRun, (startId_ne_past count).symm]
  have idle : ∀ run ∈ registry.runs.reverse, run.state.isLive = false := by
    simp [crowd.runs, pastRun, RunState.isLive]
  refine .thenCheckOr (fun _ failed => by cases failed) fun _ _ => .thenRead ?_
  rw [unrecorded]
  refine .thenAsk fun asked => .thenCheckOr (fun _ failed => by cases failed) fun _ _ =>
    .thenCheckOr (fun _ failed => by cases failed) fun fresh known => ?_
  cases known
  refine .thenCheckOr (fun _ failed => ?_) fun _ _ => .thenRead (.thenCheckOr (fun _ failed => ?_)
    fun _ _ => ?_)
  · simp [loosePlan, samplePlan] at failed
  · rw [crowd.unknown bound] at failed
    cases failed
  · split
    · rename_i run found
      have live := List.find?_some found
      simp [idle run (List.mem_of_find?_eq_some found)] at live
    · exact crowd.admit bound

end Crowd

theorem pastRun_valid (pinned : Bool) :
    RunLedger.validate sampleFormats ⟨2, [pastRun.withPin pinned], []⟩ = .ok () := by
  cases pinned
  · decide
  · decide

section Past

variable {registry : RunRegistry} (pinned : Bool) (runs : registry.runs = [pastRun.withPin pinned])
  (active : registry.active = ∅)
include runs active

theorem past_info (reply : Answers) : registry.info reply "past" = .ok (pastRun.withPin pinned) := by
  simp only [RunRegistry.info, RunRegistry.find, runs, active]
  rfl

/-- Every write succeeds while the run of the past is the only record. -/
theorem persist_past (retired : registry.retired = []) :
    Ensures (fun _ => sampleAnswers "run") (· = registry) (persist sampleFormats)
      (fun _ last => last = registry.stored ⟨2, [pastRun.withPin pinned], []⟩) (fun _ => False) := by
  have listed (reply : Answers) : registry.ledger reply = ⟨2, [pastRun.withPin pinned], []⟩ := by
    simp only [RunRegistry.ledger, RunRegistry.list, runs, retired, List.map_cons, List.map_nil]
    rw [show (pastRun.withPin pinned).runId = "past" from rfl, past_info pinned runs active]
  refine .thenRead (.thenAsk fun asked => .thenCheckOr (fun _ failed => ?_) fun _ _ =>
    .thenCheckOr (fun _ failed => by cases failed) fun _ _ => ?_)
  · rw [listed, pastRun_valid] at failed
    cases failed
  · rw [listed]
    exact .updated rfl

theorem infoOf_past : Ensures (fun _ => sampleAnswers "run") (· = registry) (infoOf "past")
    (fun run last => run = pastRun.withPin pinned ∧ last = registry) (fun _ => False) := by
  refine .thenRead (.thenAsk fun asked => .checkedOr (fun _ failed => ?_) fun run found => ?_)
  · rw [past_info pinned runs active] at failed
    cases failed
  · rw [past_info pinned runs active] at found
    cases found
    exact ⟨rfl, rfl⟩

end Past

/-- The registry with what a host has read of the past. -/
def restoredPast : RunRegistry := { RunRegistry.onDisk .default [pastLedger] with runs := [pastRun] }

/-- A host starts on the run of the past. -/
theorem openRegistry_crowd : Ensures (fun _ => sampleAnswers "run")
    (· = .onDisk .default [pastLedger]) (openRegistry sampleFormats) (fun _ => Crowd 0)
    (fun _ => False) := by
  have recovers : recoverRuns sampleFormats (sampleAnswers "run") [] [pastRun] = .ok [pastRun] := by
    rfl
  have loading : Ensures (fun _ => sampleAnswers "run") (· = .onDisk .default [pastLedger])
      (loadLedger sampleFormats) (fun _ last => last = restoredPast) (fun _ => False) := by
    refine .thenAsk fun _ => .thenCheckOr (fun _ => nofun) fun projects none => .thenUpdate
      (.thenCheckOr (fun _ => nofun) fun _ _ => .thenRead (.thenCheckOr (fun _ failed => ?_)
      fun _ _ => .thenCheckOr (fun _ => nofun) fun _ _ => .thenCheckOr (fun _ failed => ?_)
      fun runs recovered => .updated ?_))
    · change RunLedger.validate sampleFormats ⟨2, [pastRun.withPin true], []⟩ = _ at failed
      rw [pastRun_valid] at failed
      cases failed
    · cases recovers.symm.trans failed
    · cases none
      cases recovers.symm.trans recovered
      rfl
  have crowd : Crowd 0 (stored ⟨2, [pastRun.withPin true], []⟩ restoredPast) := by
    refine ⟨rfl, rfl, rfl, rfl, fun ledger held run member => ?_⟩
    have kept : ledger = ⟨2, [pastRun], []⟩ := by
      rcases List.mem_cons.mp held with rfl | held
      · rfl
      · exact List.mem_singleton.mp held
    rw [kept] at member
    rw [List.mem_singleton.mp member]
    rfl
  obtain ⟨cleaned, expired, -⟩ :=
    @Crowd.upkeep (fun _ => sampleAnswers "run") _ _ crowd (fun _ => false) "" rfl
  have settles := expired.consequence (fun _ same => same)
    (fun _ last (same : last = _) => same ▸ crowd) fun _ lost => lost
  exact loading.bind fun _ => .thenCall (persist_past true rfl rfl rfl) rfl fun _ _ same =>
    .thenCall cleaned same fun _ _ same => .tail settles same

theorem RunWorld.opened_registry (registry : RunRegistry) :
    (RunWorld.opened registry).registry = registry := rfl

theorem sampleOpen_crowd :
    (openDisk sampleFormats [pastLedger] fun _ => sampleAnswers "run").result = .ok () ∧
      Crowd 0 (sampleOpen [pastLedger]).registry := by
  rw [sampleOpen, RunWorld.opened_registry, openDisk]
  obtain ⟨⟨⟩, opened, crowd⟩ := openRegistry_crowd.succeeds 0 rfl
  exact ⟨opened, crowd⟩

/-- What the reservation of a further start ends with. -/
def looseOutcome (count : Nat) : Logic.Outcome String RunRegistry BeginReservation :=
  beginReserve sampleFormats (loosePlan "project" "task") (startId count) true
    (looseReserve count).answers 0 (crowded count).registry

theorem looseOutcome_crowd {count : Nat} (crowd : Crowd count (crowded count).registry)
    (bound : count < historyLimit) :
    (looseOutcome count).result = .ok (.fresh (looseTicket count)) ∧
      Crowd (count + 1) (looseOutcome count).state := by
  obtain ⟨reply, returned, rfl, next⟩ := (crowd.reserve bound).succeeds 0 rfl
  exact ⟨returned, next⟩

theorem crowded_next {count : Nat}
    (reserved : (looseOutcome count).result = .ok (.fresh (looseTicket count))) :
    crowded (count + 1) = { crowded count with
      registry := (looseOutcome count).state
      tickets := (crowded count).tickets.insert (startId count) (looseTicket count) } := by
  rw [crowded, RunWorld.perform]
  simp only [looseReserve, looseOutcome] at reserved ⊢
  rw [reserved]
  rfl

/-- The tickets of the pending starts are out, and no others. -/
theorem crowded_crowd {count : Nat} (bound : count ≤ historyLimit) :
    Crowd count (crowded count).registry ∧
      ∀ runId (ticket : BeginTicket), (crowded count).tickets[runId]? = some ticket →
        ∃ index < count, runId = startId index := by
  induction count with
  | zero =>
    refine ⟨sampleOpen_crowd.2, fun runId ticket held => ?_⟩
    simp [crowded, sampleOpen, RunWorld.opened] at held
  | succ count inductionHypothesis =>
    obtain ⟨crowd, known⟩ := inductionHypothesis (Nat.le_of_succ_le bound)
    obtain ⟨reserved, next⟩ := looseOutcome_crowd crowd bound
    rw [crowded_next reserved]
    refine ⟨next, fun runId ticket held => ?_⟩
    rw [Std.TreeMap.getElem?_insert] at held
    split at held
    · rename_i same
      exact ⟨count, Nat.lt_succ_self count, (Std.LawfulEqCmp.compare_eq_iff_eq.mp same).symm⟩
    · obtain ⟨index, earlier, same⟩ := known runId ticket held
      exact ⟨index, Nat.lt_succ_of_lt earlier, same⟩

/-- A further start is given an id that nothing else has. -/
theorem looseReserve_enabled {count : Nat} (bound : count < historyLimit) :
    (crowded count).Enabled sampleFormats (looseReserve count) := by
  obtain ⟨crowd, known⟩ := crowded_crowd (Nat.le_of_lt bound)
  obtain ⟨returned, next⟩ := looseOutcome_crowd crowd bound
  intro ticket reserved
  cases returned.symm.trans reserved
  refine ⟨?_, ?_, fun run member => ?_, fun ledger stored run member => ?_⟩
  · by_contra held
    obtain ⟨ticket, held⟩ := Option.ne_none_iff_exists'.mp held
    obtain ⟨index, earlier, same⟩ := known _ _ held
    exact Nat.ne_of_gt earlier (startId_inj bound (Nat.lt_trans earlier bound) same)
  · have idle : (looseOutcome count).state.active[startId count]? = none := by
      rw [next.active]
      rfl
    exact idle
  · have only : run ∈ (looseOutcome count).state.runs := member
    rw [next.runs] at only
    rw [List.mem_singleton.mp only]
    exact (startId_ne_past count).symm
  · rw [next.durable ledger stored run member]
    exact (startId_ne_past count).symm

theorem crowded_reachable {count : Nat} (bound : count ≤ historyLimit) :
    (lifeSystem sampleFormats).Reachable (.up (crowded count)) := by
  induction count with
  | zero =>
    have initial : (lifeSystem sampleFormats).init (.down [pastLedger]) :=
      .inr ⟨pastLedger, rfl, by simp [pastLedger, pastRun]⟩
    exact ⟨.down [pastLedger], [.opened fun _ => sampleAnswers "run"], initial,
      System.Run.single (.opened sampleOpen_crowd.1)⟩
  | succ count inductionHypothesis =>
    exact (inductionHypothesis (Nat.le_of_succ_le bound)).step
      (.called (looseReserve_enabled bound))

theorem pinResult_crowd {registry : RunRegistry} {count : Nat} (crowd : Crowd count registry) :
    Ensures (fun _ => sampleAnswers "run") (· = registry) (pinResult sampleFormats "past" false)
      (fun _ last => last.unpinned = 1 ∧ last.pendingStarts.length = count) (fun _ => False) := by
  have runs : registry.runs = [pastRun.withPin true] := crowd.runs
  have roomy : registry.isHistoryFull = false := by
    simp [RunRegistry.isHistoryFull, crowd.fits, historyLimit, runRecordLimit]
  refine .thenCall (infoOf_past true runs crowd.active) rfl fun known last same => ?_
  obtain ⟨rfl, rfl⟩ := same
  refine .thenCheckOr (fun _ => nofun) fun _ _ => .branch nofun fun _ => ?_
  refine .thenCall (crowd.upkeep roomy).2.2 rfl fun _ last same => ?_
  subst same
  have revised : (revise "past" (·.withPin false) last).runs = [pastRun.withPin false] := by
    simp only [revise, runs]
    rfl
  have found : Ensures (fun _ => sampleAnswers "run") (· = last) (runMut "past")
      (fun _ => (· = last)) (fun _ => False) := by
    refine .thenRead (.checkedOr (fun _ failed => ?_) fun _ _ => rfl)
    simp only [RunRegistry.find, runs] at failed
    cases failed
  refine .thenCall found rfl fun _ again same => ?_
  rw [same]
  have persisting := persist_past false revised crowd.active crowd.retired
  have saves : Ensures (fun _ => sampleAnswers "run") (· = last)
      (saving sampleFormats (revise "past" (·.withPin false))
        (revise "past" (·.withPin (pastRun.withPin true).pinned)) id)
      (fun _ => (· = stored ⟨2, [pastRun.withPin false], []⟩
        (revise "past" (·.withPin false) last))) (fun _ => False) := by
    refine .thenUpdate (.thenAttempt persisting rfl ?_ fun _ _ => False.elim)
    rintro _ _ rfl
    exact .updated rfl
  refine .thenCall saves rfl fun _ after same => ?_
  subst same
  have informs := @infoOf_past (stored ⟨2, [pastRun.withPin false], []⟩
    (revise "past" (·.withPin false) last)) false revised crowd.active
  refine .tail (informs.consequence (fun _ same => same) ?_ fun _ lost => lost) rfl
  rintro _ after ⟨-, rfl⟩
  refine ⟨?_, ?_⟩
  · simp only [RunRegistry.unpinned, stored, revised]
    rfl
  · simp only [stored, revise, crowd.pending, List.length_map, List.length_range]

theorem perform_pinResult (world : RunWorld) (runId : String) (pinned : Bool) :
    (world.perform sampleFormats (sampleInvocation (.pinResult runId pinned))).registry =
      (pinResult sampleFormats runId pinned (fun _ => sampleAnswers "run") 0
        world.registry).state := rfl

/-- With all places reserved, unpinning the run of the past takes one of them: the history
    cannot hold all the starts that were admitted. -/
theorem unpinning_overflows_reservations : ∃ world,
    (lifeSystem sampleFormats).Reachable (.up world) ∧
    historyLimit < world.registry.unpinned + world.registry.pendingStarts.length := by
  obtain ⟨crowd, -⟩ := crowded_crowd (Nat.le_refl historyLimit)
  obtain ⟨run, -, unpinned, pending⟩ := (pinResult_crowd crowd).succeeds 0 rfl
  refine ⟨crowdedUnpinned, (crowded_reachable (Nat.le_refl _)).step (.called trivial), ?_⟩
  rw [crowdedUnpinned, perform_pinResult, unpinned, pending]
  exact Nat.lt_add_of_pos_left Nat.one_pos

end Idk.Verified
