import Idk.Verified.Run.CrashSafety
import Mathlib.Data.List.Perm.Subperm

/-!
# Who occupies a task and its build outputs

A live run, an unconfirmed unknown run and a pending start occupy their task and their
resolved build outputs.  Only a granted reservation adds an occupant, and it is checked
against all the others; everything else at most takes occupants away, and a commit moves
one from the pending starts to the records.

**Main results:**

- `Effect.shrinks`: no effect but these two adds an occupant, in memory or on the disk.
- `beginReserve_ensures`: what a reservation has checked when it is granted.
- `beginCommit_ensures`: what a commit does to the records and the pending starts.
-/

namespace Idk

open Idk.Logic.Procedure (Takes Ensures ReadOnly)
open Relation (ReflTransGen)
open RunRegistry

/-! ## Occupants -/

/-- What keeps a task and its resolved build outputs in use. -/
structure Occupant where
  runId : String
  projectId : String
  taskId : String
  buildOutputs : List PathBuf

def RunInfo.occupant (run : RunInfo) : Occupant where
  runId := run.runId
  projectId := run.projectId
  taskId := run.taskId
  buildOutputs := run.buildOutputs

def PendingStart.occupant (pending : PendingStart) : Occupant where
  runId := pending.runId
  projectId := pending.projectId
  taskId := pending.taskId
  buildOutputs := pending.buildOutputs

/-- Live, or the unconfirmed outcome of an earlier host. -/
def occupies (run : RunInfo) : Bool := run.state.isLive || unresolved run

def runOccupants (runs : List RunInfo) : List Occupant :=
  (runs.filter occupies).map RunInfo.occupant

def occupants (registry : RunRegistry) : List Occupant :=
  runOccupants registry.runs ++ registry.pendingStarts.map PendingStart.occupant

/-- The granted reservations, newest first: the run's id and whether it was requested as
    parallel. -/
abbrev Admissions := List (String × Bool)

/-- Of two runs, the one admitted later was requested as parallel. -/
def Admissions.laterParallel (admissions : Admissions) (first second : String) : Bool :=
  (admissions.find? fun admission => admission.1 == first || admission.1 == second).any (·.2)

/-- Different occupants have unrelated outputs, and two of one task are there only because
    the later was requested as parallel. -/
def Separate (admissions : Admissions) (present : List Occupant) : Prop :=
  ∀ first ∈ present, ∀ second ∈ present, first.runId ≠ second.runId →
    overlaps first.buildOutputs second.buildOutputs = false ∧
    (first.projectId = second.projectId → first.taskId = second.taskId →
      admissions.laterParallel first.runId second.runId = true)

/-- Run ids and operation ids of the retained runs and the pending starts. -/
def runIds (registry : RunRegistry) : List String :=
  registry.runs.map (·.runId) ++ registry.pendingStarts.map (·.runId)

def operationIds (registry : RunRegistry) : List String :=
  registry.runs.map (·.operationId) ++ registry.pendingStarts.map (·.operationId)

theorem mem_runOccupants {runs : List RunInfo} {occupant : Occupant} :
    occupant ∈ runOccupants runs ↔
      ∃ run ∈ runs, occupies run = true ∧ run.occupant = occupant := by
  simp [runOccupants, and_assoc]

theorem overlaps_comm (outputs others : List PathBuf) :
    overlaps outputs others = overlaps others outputs := by
  apply Bool.eq_iff_iff.mpr
  simp only [overlaps, List.any_eq_true, Bool.or_eq_true]
  constructor
  · intro found
    obtain ⟨path, member, other, listed, related⟩ := found
    exact ⟨other, listed, path, member, related.symm⟩
  · intro found
    obtain ⟨path, member, other, listed, related⟩ := found
    exact ⟨other, listed, path, member, related.symm⟩

theorem Admissions.laterParallel_comm (admissions : Admissions) (first second : String) :
    admissions.laterParallel first second = admissions.laterParallel second first := by
  simp only [laterParallel, Bool.or_comm]

/-- A new admission decides about the new run only. -/
theorem Admissions.laterParallel_cons {admissions : Admissions} {newest : String × Bool}
    {first second : String} (apart : newest.1 ≠ first) (other : newest.1 ≠ second) :
    Admissions.laterParallel (newest :: admissions) first second =
      admissions.laterParallel first second := by
  simp [laterParallel, apart, other]

theorem Admissions.laterParallel_new (admissions : Admissions) (runId : String)
    (parallel : Bool) (other : String) :
    Admissions.laterParallel ((runId, parallel) :: admissions) runId other = parallel := by
  simp [laterParallel]

section Separate

variable {admissions : Admissions} {present fewer : List Occupant}

theorem Separate.subset (separate : Separate admissions present)
    (subset : ∀ occupant ∈ fewer, occupant ∈ present) : Separate admissions fewer :=
  fun first member second other =>
    separate first (subset first member) second (subset second other)

/-- An admission under a new id changes nothing among the others. -/
theorem Separate.admitted (separate : Separate admissions present) {newest : String × Bool}
    (unused : ∀ occupant ∈ present, newest.1 ≠ occupant.runId) :
    Separate (newest :: admissions) present := by
  intro first member second other apart
  obtain ⟨unrelated, later⟩ := separate first member second other apart
  rw [Admissions.laterParallel_cons (unused first member) (unused second other)]
  exact ⟨unrelated, later⟩

/-- What was checked against every occupant may join them. -/
theorem Separate.join (separate : Separate admissions present) {occupant : Occupant}
    {parallel : Bool} (unused : ∀ other ∈ present, occupant.runId ≠ other.runId)
    (unrelated : ∀ other ∈ present,
      overlaps occupant.buildOutputs other.buildOutputs = false)
    (serial : parallel = false → ∀ other ∈ present,
      ¬ (other.projectId = occupant.projectId ∧ other.taskId = occupant.taskId)) :
    Separate ((occupant.runId, parallel) :: admissions) (occupant :: present) := by
  have joins (other : Occupant) (member : other ∈ present) :
      overlaps occupant.buildOutputs other.buildOutputs = false ∧
      (other.projectId = occupant.projectId → other.taskId = occupant.taskId →
        Admissions.laterParallel ((occupant.runId, parallel) :: admissions) occupant.runId
          other.runId = true) := by
    refine ⟨unrelated other member, ?_⟩
    intro project task
    rw [Admissions.laterParallel_new]
    cases parallel with
    | true => rfl
    | false => exact absurd ⟨project, task⟩ (serial rfl other member)
  intro first member second other apart
  cases member with
  | head =>
    cases other with
    | head => exact absurd rfl apart
    | tail _ other =>
      obtain ⟨clear, later⟩ := joins second other
      exact ⟨clear, fun project task => later project.symm task.symm⟩
  | tail _ member =>
    cases other with
    | head =>
      obtain ⟨clear, later⟩ := joins first member
      rw [overlaps_comm, Admissions.laterParallel_comm]
      exact ⟨clear, later⟩
    | tail _ other => exact separate.admitted unused first member second other apart

end Separate

/-! ## Effects that add no occupant -/

/-- Neither a reservation nor a commit, and no confirmed cleanup is taken back. -/
def quiet : May where
  pend _ := False
  commit _ := False
  unconfirm run := run.cleanupConfirmed = false

/-- The identities of a record, which revisions keep. -/
def RunInfo.identities (run : RunInfo) : String × String := (run.runId, run.operationId)

/-- No more is occupied, recorded or pending than before, and nothing else was stored. -/
structure Shrinks (tickets : BTreeMap BeginTicket) (before after : RunRegistry) : Prop where
  occupied : ∀ occupant ∈ runOccupants after.runs, occupant ∈ runOccupants before.runs
  recorded : (after.runs.map RunInfo.identities).Sublist (before.runs.map RunInfo.identities)
  pending : after.pendingStarts.Sublist before.pendingStarts
  awaited : ∀ pending ∈ before.pendingStarts, tickets.contains pending.runId = true →
    pending ∈ after.pendingStarts
  written : ∀ ledger ∈ after.durable, ledger ∈ before.durable ∨
    ∀ occupant ∈ runOccupants ledger.runs, occupant ∈ runOccupants before.runs

section Shrinks

variable {tickets : BTreeMap BeginTicket} {before middle after : RunRegistry}

theorem Shrinks.refl (registry : RunRegistry) : Shrinks tickets registry registry :=
  ⟨fun _ member => member, .refl _, .refl _, fun _ member _ => member,
    fun _ member => .inl member⟩

theorem Shrinks.trans (first : Shrinks tickets before middle)
    (second : Shrinks tickets middle after) : Shrinks tickets before after := by
  refine ⟨?_, second.recorded.trans first.recorded, second.pending.trans first.pending, ?_, ?_⟩
  · intro occupant member
    exact first.occupied occupant (second.occupied occupant member)
  · intro pending member out
    exact second.awaited pending (first.awaited pending member out) out
  · intro ledger member
    cases second.written ledger member with
    | inl earlier => exact first.written ledger earlier
    | inr fewer => exact .inr fun occupant listed => first.occupied occupant (fewer occupant listed)

theorem Shrinks.present (shrinks : Shrinks tickets before after) (occupant : Occupant)
    (member : occupant ∈ occupants after) : occupant ∈ occupants before := by
  cases List.mem_append.mp member with
  | inl run => exact List.mem_append_left _ (shrinks.occupied occupant run)
  | inr pending => exact List.mem_append_right _ ((shrinks.pending.map _).subset pending)

/-- The same records, pending starts and disk. -/
theorem Shrinks.same (runs : after.runs = before.runs)
    (pending : after.pendingStarts = before.pendingStarts)
    (durable : after.durable = before.durable) : Shrinks tickets before after := by
  constructor
  · rw [runs]
    exact fun _ member => member
  · rw [runs]
  · rw [pending]
  · rw [pending]
    exact fun _ member _ => member
  · rw [durable]
    exact fun _ member => .inl member

theorem runOccupants_filterMap (runs : List RunInfo) : runOccupants runs =
    runs.filterMap fun run => if occupies run then some run.occupant else none := by
  induction runs with
  | nil => rfl
  | cons head rest inductionHypothesis =>
    unfold runOccupants at inductionHypothesis ⊢
    by_cases busy : occupies head = true
    · simp [busy, inductionHypothesis]
    · simp [busy, inductionHypothesis]

/-- A stored ledger occupies what the records in memory occupy. -/
theorem ledger_occupants {registry : RunRegistry}
    (unique : (registry.runs.map (·.runId)).Nodup) (answers : Answers) :
    runOccupants (registry.ledger answers).runs = runOccupants registry.runs := by
  have same := congrArg (List.filterMap id) (list_map unique answers
    (fun run => if occupies run then some run.occupant else none) fun _ => rfl)
  rw [List.filterMap_map, List.filterMap_map] at same
  rw [runOccupants_filterMap, runOccupants_filterMap]
  exact same

/-- Storing the records adds to the disk what they occupy. -/
theorem Shrinks.write (shrinks : Shrinks tickets before after)
    (unique : (after.runs.map (·.runId)).Nodup) (answers : Answers) :
    Shrinks tickets before (stored (after.ledger answers) after) := by
  refine { shrinks with written := ?_ }
  intro ledger member
  cases member with
  | head =>
    right
    rw [ledger_occupants unique]
    exact shrinks.occupied
  | tail _ earlier => exact shrinks.written ledger earlier

theorem Shrinks.revised {runId : String} {change : RunInfo → RunInfo} {run : RunInfo}
    (unique : (before.runs.map (·.runId)).Nodup) (found : before.find runId = some run)
    (same : (change run).intent = run.intent)
    (busy : occupies (change run) = true → occupies run = true) :
    Shrinks tickets before (revise runId change before) := by
  have only (old : RunInfo) (again : before.find runId = some old) : old = run :=
    Option.some.inj (again.symm.trans found)
  refine ⟨?_, ?_, .refl _, fun _ member _ => member, fun _ member => .inl member⟩
  · intro occupant member
    obtain ⟨revised, among, occupying, rfl⟩ := mem_runOccupants.mp member
    apply mem_runOccupants.mpr
    cases mem_revise unique among with
    | inl kept => exact ⟨revised, kept.1, occupying, rfl⟩
    | inr replaced =>
      obtain ⟨old, again, rfl⟩ := replaced
      rw [only old again] at occupying ⊢
      refine ⟨run, (find_runId found).1, busy occupying, ?_⟩
      have intents : ∀ left right : RunInfo, left.intent = right.intent →
          left.occupant = right.occupant := by
        intro left right agree
        simp only [RunInfo.intent, RunIntent.mk.injEq] at agree
        simp only [RunInfo.occupant, agree]
      exact intents run (change run) same.symm
  · have same : (revise runId change before).runs.map RunInfo.identities =
        before.runs.map RunInfo.identities := by
      apply updateFirst_map
      intro old again
      rw [only old again]
      simp only [RunInfo.intent, RunIntent.mk.injEq] at same
      simp only [RunInfo.identities, same]
    rw [same]

theorem Shrinks.retired {index : Nat} {entry : RetiredRun} :
    Shrinks tickets before (retire index entry before) := by
  have fewer : (before.runs.eraseIdx index).Sublist before.runs := List.eraseIdx_sublist _ _
  refine ⟨?_, fewer.map _, .refl _, fun _ member _ => member, fun _ member => .inl member⟩
  intro occupant member
  obtain ⟨run, among, occupying⟩ := mem_runOccupants.mp member
  exact mem_runOccupants.mpr ⟨run, fewer.subset among, occupying⟩

end Shrinks

theorem occupies_of_live {run : RunInfo} (live : run.state.isLive = true) :
    occupies run = true := by
  simp [occupies, live]

/-- The effects that are allowed add no occupant. -/
theorem Effect.shrinks {formats : Formats} {tickets : BTreeMap BeginTicket}
    {before after : RunRegistry} (durability : Durability tickets before)
    (step : Effect formats tickets quiet before after) : Shrinks tickets before after := by
  have unique := (durability.effect _ _ step).unique
  cases step with
  | cleaned step =>
    cases step with
    | @intro _ rest answers first valid =>
      have moved : Shrinks tickets before { before with retired := rest } := .same rfl rfl rfl
      exact moved.write unique answers
  | retired step =>
    cases step with
    | @intro index old entry answers here rotatable room valid =>
      have moved : Shrinks tickets before (retire index entry before) := .retired
      exact (moved.write unique answers).trans (.same rfl rfl rfl)
  | @persisted answers valid => exact (Shrinks.refl before).write unique answers
  | published clear => exact .same rfl rfl rfl
  | granted reserved => exact .same rfl rfl rfl
  | pended room allowed => exact absurd allowed id
  | @unpended runId taken =>
    refine ⟨fun _ member => member, .refl _, List.filter_sublist, ?_, fun _ member => .inl member⟩
    intro pending member out
    refine List.mem_filter.mpr ⟨member, ?_⟩
    simp only [bne_iff_ne, ne_eq]
    intro same
    rw [same, Std.TreeMap.contains_eq_isSome_getElem?, taken] at out
    cases out
  | dropped floating => exact .same rfl rfl rfl
  | committed floating allowed named starting observed leased valid => exact absurd allowed id
  | lived found live same still =>
    exact .revised durability.unique found same.1 fun _ => occupies_of_live live
  | @acknowledged runId run answers inactive allowed found lost valid =>
    have revised : Shrinks tickets before (revise runId (·.acknowledged) before) := by
      apply Shrinks.revised durability.unique found rfl
      intro busy
      simp [occupies, unresolved, RunInfo.acknowledged, lost, RunState.isLive] at busy
    exact revised.write unique answers
  | ended owned same finishing => exact .same rfl rfl rfl
  | @concluded runId active run change owned finishing found same stopped open_ allowed =>
    apply Shrinks.revised durability.unique found same.1
    intro busy
    simp only [occupies, stopped, Bool.false_or, unresolved, Bool.and_eq_true,
      Bool.not_eq_true'] at busy
    have unconfirmed : run.cleanupConfirmed = false := allowed busy.2
    cases durability.unfinished run (find_runId found).1 unconfirmed with
    | inl live => exact occupies_of_live live
    | inr lost => simp [occupies, unresolved, lost, unconfirmed]
  | settled found agrees durable =>
    unfold settle
    split
    · exact .refl before
    · split <;> exact .same rfl rfl rfl
  | @pinned runId pinned run answers found stopped confirmed toggles room valid =>
    have revised : Shrinks tickets before (revise runId (·.withPin pinned) before) :=
      .revised durability.unique found rfl fun busy => busy
    exact revised.write unique answers

/-- What a sequence of allowed effects leaves. -/
theorem effects_shrink {formats : Formats} {tickets : BTreeMap BeginTicket}
    {before after : RunRegistry} (durability : Durability tickets before)
    (steps : ReflTransGen (Effect formats tickets quiet) before after) :
    Durability tickets after ∧ Shrinks tickets before after := by
  induction steps with
  | refl => exact ⟨durability, .refl before⟩
  | tail _ step inductionHypothesis =>
    obtain ⟨durable, shrinks⟩ := inductionHypothesis
    exact ⟨durable.effect _ _ step, shrinks.trans (step.shrinks durable)⟩

/-! ## Granted reservations -/

abbrev Quietly (formats : Formats) (tickets : BTreeMap BeginTicket) :
    RunRegistry → RunRegistry → Prop :=
  ReflTransGen (Effect formats tickets quiet)

/-- What led to a granted reservation, and what it was checked against at its start. -/
structure Granted (formats : Formats) (tickets : BTreeMap BeginTicket) (start after : RunRegistry)
    (parallel : Bool) (ticket : BeginTicket) : Prop where
  steps : ∃ before, Quietly formats tickets start before ∧
    Reserving before after ticket
  unused : ticket.operationId ∉ operationIds start
  apart : ∀ other ∈ occupants start, overlaps ticket.outputs other.buildOutputs = false
  serial : parallel = false → ∀ other ∈ occupants start,
    ¬ (other.projectId = ticket.plan.projectId ∧ other.taskId = ticket.plan.task.id)

section Reserve

variable {formats : Formats} {tickets : BTreeMap BeginTicket} {answers : Nat → Answers}
  {start : RunRegistry}

theorem takeStart_ensures {plan : TaskLaunchPlan} {operationId : String}
    {outputs : List PathBuf} :
    Ensures answers
      (fun registry => registry.isFull = false ∧
        Quietly formats tickets start registry)
      (takeStart plan operationId outputs)
      (fun reservation after => ∃ ticket before, reservation = .fresh ticket ∧
        ticket.plan = plan ∧ ticket.operationId = operationId ∧ ticket.outputs = outputs ∧
        Quietly formats tickets start before ∧
        Reserving before after ticket)
      (Quietly formats tickets start) := by
  have leasing : Ensures answers
      (fun registry => (registry.isFull = false ∧ Quietly formats tickets start registry) ∧
        Quietly formats tickets start registry) (takeLease plan operationId) _ _ :=
    .ofTakes (takeLease_takes _ fun _ _ earlier step => earlier.tail step)
  apply Ensures.known
  intro registry holds
  apply Ensures.thenAsk
  intro asked
  apply Ensures.thenCall leasing ⟨holds, holds.2⟩
  intro lease leased taken
  obtain ⟨⟨before, gate, earlier, room, rfl, same, granted⟩, _⟩ := taken
  apply Ensures.thenUpdate
  apply Ensures.done
  refine ⟨_, before, rfl, rfl, rfl, rfl, earlier, ?_⟩
  cases lease with
  | none => exact ⟨room, ⟨same, nofun⟩, granted, rfl, rfl, rfl, rfl, rfl⟩
  | some lease =>
    refine ⟨room, ⟨same, ?_⟩, granted.2, rfl, rfl, rfl, rfl, rfl⟩
    intro other named
    cases named
    exact granted.1

/-- The end of a reservation: a ticket that was checked against all occupants. -/
def Reserves (formats : Formats) (tickets : BTreeMap BeginTicket) (start : RunRegistry)
    (parallel : Bool) (reservation : BeginReservation) (after : RunRegistry) : Prop :=
  match reservation with
  | .existing _ => Quietly formats tickets start after
  | .fresh ticket => Granted formats tickets start after parallel ticket

theorem admitStart_ensures {plan : TaskLaunchPlan} {operationId : String} {parallel : Bool}
    (unused : operationId ∉ operationIds start)
    (idle : parallel = false → ∀ run ∈ start.runs, run.projectId = plan.projectId →
      run.taskId = plan.task.id → run.state.isLive = false) :
    Ensures answers (· = start) (admitStart formats plan operationId parallel)
      (Reserves formats tickets start parallel)
      (Quietly formats tickets start) := by
  apply Ensures.thenRead
  apply Ensures.thenCheck .refl
  intro _ noPending
  apply Ensures.thenCheck .refl
  intro _ resolved
  apply Ensures.thenAsk
  intro asked
  apply Ensures.thenCheck .refl
  intro outputs _
  apply Ensures.thenCheck .refl
  intro _ runsApart
  apply Ensures.thenCheck .refl
  intro _ pendingApart
  -- From here on only history is removed before the start is reserved.
  have cleaning : Ensures answers (fun registry => True ∧ Quietly formats tickets start registry)
      (cleanupRetired formats) _ _ :=
    .ofTakes ((cleanupRetired_takes _).mono fun _ _ => .cleaned)
  have expiring : Ensures answers (fun registry => True ∧ Quietly formats tickets start registry)
      (expireHistory formats) _ _ :=
    .ofTakes (expireHistory_takes.mono fun _ _ => Retention.effect)
  have rotating : Ensures answers (fun registry => True ∧ Quietly formats tickets start registry)
      (rotateWhile formats isFull
        "run history full of active, unknown or unfinalized executions") _ _ :=
    .ofTakes (rotateWhile_takes.mono fun _ _ => Retention.effect)
  apply Ensures.thenCall cleaning ⟨trivial, .refl⟩
  intro _ cleaned cleanedUp
  apply Ensures.thenCall expiring ⟨trivial, cleanedUp.2⟩
  intro _ expired done
  apply Ensures.thenCall rotating ⟨trivial, done.2⟩
  intro _ rotated room
  apply Ensures.consequence takeStart_ensures (fun _ same => same ▸ room) _ fun _ => id
  intro reservation after taken
  obtain ⟨ticket, before, rfl, planned, operated, rfl, steps, reserving⟩ := taken
  refine ⟨⟨before, steps, reserving⟩, operated ▸ unused, ?_, ?_⟩
  · intro other member
    cases List.mem_append.mp member with
    | inl recorded =>
      obtain ⟨run, among, busy, rfl⟩ := mem_runOccupants.mp recorded
      have clear := ensure_eq_ok.mp runsApart
      simp only [Bool.not_eq_true', List.any_eq_false, Bool.and_eq_true, not_and,
        Bool.not_eq_true] at clear
      exact clear run among busy
    | inr awaited =>
      obtain ⟨pending, among, rfl⟩ := List.mem_map.mp awaited
      have clear := ensure_eq_ok.mp pendingApart
      simp only [Bool.not_eq_true', List.any_eq_false, Bool.not_eq_true] at clear
      exact clear pending among
  · intro serial other member task
    rw [planned] at task
    cases List.mem_append.mp member with
    | inl recorded =>
      obtain ⟨run, among, busy, rfl⟩ := mem_runOccupants.mp recorded
      have lost := ensure_eq_ok.mp resolved
      have stopped := idle serial run among task.1 task.2
      simp only [occupies, stopped, Bool.false_or] at busy
      simp only [Bool.not_eq_true', List.any_eq_false, Bool.and_eq_true, beq_iff_eq, not_and,
        Bool.not_eq_true] at lost
      rw [lost run among task] at busy
      cases busy
    | inr awaited =>
      obtain ⟨pending, among, rfl⟩ := List.mem_map.mp awaited
      have clear := ensure_eq_ok.mp noPending
      simp only [serial, Bool.not_false, Bool.and_true, Bool.not_eq_true', List.any_eq_false,
        Bool.and_eq_true, beq_iff_eq] at clear
      exact clear pending among task

theorem beginReserve_ensures {plan : TaskLaunchPlan} {operationId : String} {parallel : Bool} :
    Ensures answers (· = start) (beginReserve formats plan operationId parallel)
      (Reserves formats tickets start parallel)
      (Quietly formats tickets start) := by
  have refers (runId : String) : Ensures answers (· = start) (existing runId)
      (Reserves formats tickets start parallel)
      (Quietly formats tickets start) := by
    have looking : Ensures answers
        (fun registry => True ∧ Quietly formats tickets start registry) (infoOf runId) _ _ :=
      .ofTakes (infoOf_readOnly runId).takes
    apply Ensures.thenCall looking ⟨trivial, .refl⟩
    intro run after looked
    exact Ensures.done looked.2
  apply Ensures.thenCheck .refl
  intro _ _
  apply Ensures.thenRead
  split
  · apply Ensures.thenCheck .refl
    intro _ _
    exact refers _
  · rename_i fresh
    apply Ensures.thenAsk
    intro asked
    apply Ensures.thenCheck .refl
    intro _ _
    apply Ensures.thenCheck .refl
    intro planned _
    apply Ensures.thenCheck .refl
    intro _ _
    apply Ensures.thenRead
    apply Ensures.thenCheck .refl
    intro _ unawaited
    have unused : operationId ∉ operationIds start := by
      have clear := ensure_eq_ok.mp unawaited
      simp only [Bool.not_eq_true', List.any_eq_false, beq_iff_eq] at clear
      simp only [List.find?_eq_none, beq_iff_eq] at fresh
      intro member
      cases List.mem_append.mp member with
      | inl recorded =>
        obtain ⟨run, among, same⟩ := List.mem_map.mp recorded
        exact fresh run among same
      | inr awaited =>
        obtain ⟨pending, among, same⟩ := List.mem_map.mp awaited
        exact clear pending among same
    split
    · rename_i live found
      by_cases alongside : parallel = true
      · subst alongside
        exact admitStart_ensures unused nofun
      · rw [if_pos (by simpa using alongside)]
        exact refers _
    · rename_i idle
      apply admitStart_ensures unused
      intro _ run among project task
      simp only [List.find?_eq_none, List.mem_reverse, Bool.and_eq_true, beq_iff_eq, not_and,
        Bool.not_eq_true] at idle
      exact idle run among ⟨project, task⟩

end Reserve

/-! ## Commits -/

/-- The record of a start that is being prepared. -/
def BeginTicket.pendingStart (ticket : BeginTicket) : PendingStart where
  runId := ticket.runId
  projectId := ticket.plan.projectId
  taskId := ticket.plan.task.id
  operationId := ticket.operationId
  buildOutputs := ticket.outputs

/-- A commit moves the start from the pending ones to the records, or only drops it. -/
structure Committed (start after : RunRegistry) (ticket : BeginTicket) : Prop where
  pending : after.pendingStarts = (start.withoutPending ticket.runId).pendingStarts
  runs : after.runs = start.runs ∨ ∃ run, after.runs = start.runs ++ [run] ∧
    run.identities = (ticket.runId, ticket.operationId) ∧
    run.occupant = ticket.pendingStart.occupant
  durable : ∀ ledger ∈ after.durable, ledger ∈ start.durable ∨
    runOccupants ledger.runs = runOccupants after.runs

section Commit

variable {formats : Formats} {answers : Nat → Answers} {start : RunRegistry}
  {ticket : BeginTicket} {sourceStart : SourceObservation}

theorem saving_ensures {change undo after : RunRegistry → RunRegistry}
    (undoes : undo (change start) = start) :
    Ensures answers (· = start) (saving formats change undo after)
      (fun _ state => ∃ answer,
        state = after (stored ((change start).ledger answer) (change start)))
      (· = start) := by
  intro asked state same
  subst same
  cases saving_cases formats after answers asked undoes with
  | inl failed =>
    obtain ⟨error, failed⟩ := failed
    rw [failed]
  | inr written =>
    rw [written.2]
    exact ⟨_, rfl⟩

theorem commitStart_ensures (unique : (start.runs.map (·.runId)).Nodup)
    (unseen : ∀ run ∈ start.runs, run.runId ≠ ticket.runId) :
    Ensures answers (· = start) (commitStart formats ticket sourceStart)
      (fun _ after => after.pendingStarts = start.pendingStarts ∧
        (∃ run, after.runs = start.runs ++ [run] ∧
          run.identities = (ticket.runId, ticket.operationId) ∧
          run.occupant = ticket.pendingStart.occupant) ∧
        ∀ ledger ∈ after.durable, ledger ∈ start.durable ∨
          runOccupants ledger.runs = runOccupants after.runs)
      (· = start) := by
  apply Ensures.thenAsk
  intro asked
  apply Ensures.thenCheck (by rfl)
  intro _ _
  apply Ensures.thenCheck (by rfl)
  intro shell _
  apply Ensures.thenCheck (by rfl)
  intro log _
  apply Ensures.thenRead
  apply Ensures.thenCall (saving_ensures (by simp [appended])) rfl
  intro _ after written
  obtain ⟨answer, rfl⟩ := written
  apply Ensures.done
  refine ⟨rfl, ⟨_, rfl, rfl, rfl⟩, ?_⟩
  intro ledger member
  cases member with
  | tail _ earlier => exact .inl earlier
  | head =>
    right
    apply ledger_occupants
    simp only [appended, List.map_append, List.map_cons, List.map_nil]
    apply List.nodup_append.mpr
    refine ⟨unique, List.nodup_singleton _, ?_⟩
    intro left recorded right last
    obtain ⟨run, among, rfl⟩ := List.mem_map.mp recorded
    rw [List.mem_singleton.mp last]
    exact unseen run among

theorem beginCommit_ensures (unique : (start.runs.map (·.runId)).Nodup)
    (unseen : ∀ run ∈ start.runs, run.runId ≠ ticket.runId) :
    Ensures answers (· = start) (beginCommit formats ticket sourceStart)
      (fun _ after => Committed start after ticket) (fun after => Committed start after ticket) := by
  apply Ensures.thenUpdate
  have committing : Ensures answers (· = start.withoutPending ticket.runId)
      (commitStart formats ticket sourceStart) _ _ := commitStart_ensures unique unseen
  apply Ensures.thenAttempt committing rfl
  · intro reply after committed
    obtain ⟨pending, joined, durable⟩ := committed
    exact Ensures.done ⟨pending, .inr joined, durable⟩
  · intro error after same
    subst same
    apply Ensures.thenUpdate
    exact Ensures.failing ⟨rfl, .inl rfl, fun _ member => .inl member⟩

end Commit

end Idk
