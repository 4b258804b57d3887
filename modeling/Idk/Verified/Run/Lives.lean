import Idk.Verified.Run.Calls

/-!
# One host after another

A sound world stays sound under every call, whatever call a host ends in leaves a
disk from which nothing is lost, and opening such a disk gives a sound world again.

**Main results:**

- `Sound.took`: what a call does keeps a world sound.
- `openDisk_cases`: the two ways opening a disk can end.
- `life_sound`: every reachable world is sound and every reachable disk recoverable.
-/

namespace Idk

open Idk.Logic (System)
open Idk.Logic.Procedure (Takes ReadOnly)
open Relation (ReflTransGen)
open RunRegistry

/-! ## Calls keep a world sound -/

section Tickets

variable {tickets : BTreeMap BeginTicket} {registry : RunRegistry} {ticket : BeginTicket}

theorem custody_insert (id : String) :
    custody (tickets.insert ticket.runId ticket) registry id =
      if id = ticket.runId then ticket.lease else custody tickets registry id := by
  by_cases here : id = ticket.runId
  · simp [custody, here]
  · simp [custody, here, Std.TreeMap.getElem?_insert, Ne.symm here]

theorem Durability.insert {world : RunWorld} (holds : Durability world.tickets world.registry)
    (unused : world.Unused ticket.runId) :
    Durability (world.tickets.insert ticket.runId ticket) world.registry := by
  refine { holds with unseen := ?_ }
  intro id other held
  rw [Std.TreeMap.getElem?_insert] at held
  split at held
  · rename_i same
    have named : ticket.runId = id := by simpa using same
    rw [← named]
    refine ⟨unused.active, unused.records, ?_⟩
    intro recorded
    obtain ⟨ledger, member, run, among, again⟩ := recorded
    exact unused.stored ledger member run among again
  · exact holds.unseen id other held

/-- The lease granted to a reserved start was nobody's before. -/
theorem LeaseCustody.insert {before : RunRegistry}
    (earlier : LeaseCustody (custody tickets before) before.gate)
    (leases : LeaseCustody (custody tickets registry) registry.gate)
    (reserving : Reserving before registry ticket)
    (inactive : registry.active[ticket.runId]? = none) (untaken : tickets[ticket.runId]? = none) :
    LeaseCustody (custody (tickets.insert ticket.runId ticket) registry) registry.gate := by
  have free : custody tickets registry ticket.runId = none := by
    simp [custody, untaken, inactive]
  have fresh : ∀ held, ticket.lease = some held → registry.gate.Records held ∧
      held.mutation = false ∧ ∀ id, custody tickets registry id ≠ some held := by
    intro held granted
    have reserved := reserving.granted
    rw [granted] at reserved
    obtain ⟨name, reserved⟩ := reserved
    refine ⟨(SourceGate.records_reserve reserved held).mpr (.inl rfl),
      reserving.leased.2 held granted, ?_⟩
    intro id owned
    rw [custody_active reserving.active] at owned
    exact SourceGate.reserve_fresh reserved (earlier.recorded id held owned).1
  have taken : CustodyChange (custody tickets registry)
      (custody (tickets.insert ticket.runId ticket) registry) registry.gate registry.gate [] :=
    .taken ticket.runId ticket.lease free custody_insert rfl fresh
  exact leases.change taken

/-- The two halves of soundness go through the effects of an operation together. -/
theorem effects_sound {formats : Formats} {may : May} {before after : RunRegistry}
    (steps : ReflTransGen (Effect formats tickets may) before after)
    (durability : Durability tickets before)
    (leases : LeaseCustody (custody tickets before) before.gate) :
    Durability tickets after ∧ LeaseCustody (custody tickets after) after.gate := by
  induction steps with
  | refl => exact ⟨durability, leases⟩
  | tail _ step inductionHypothesis =>
    obtain ⟨durable, held⟩ := inductionHypothesis
    exact ⟨durable.effect _ _ step, held.change (step.custody durable)⟩

end Tickets

theorem RunWorld.Sound.took {formats : Formats} {may : May} {world next : RunWorld}
    {invocation : Invocation} (sound : world.Sound)
    (took : world.Took formats may invocation next) : next.Sound := by
  cases took with
  | effects steps =>
    obtain ⟨durability, leases⟩ := effects_sound steps sound.durability sound.leases
    exact ⟨durability, leases, sound.tickets, sound.mutations⟩
  | @reserved _ _ _ before registry ticket called earlier steps reserving unused =>
    obtain ⟨_, held⟩ := effects_sound earlier sound.durability sound.leases
    obtain ⟨durability, leases⟩ := effects_sound steps sound.durability sound.leases
    refine ⟨durability.insert unused, held.insert leases reserving unused.active unused.ticket,
      ?_, sound.mutations⟩
    intro runId other found
    rw [Std.TreeMap.getElem?_insert] at found
    split at found
    · rename_i same
      cases found
      exact ⟨by simpa using same, reserving.leased⟩
    · exact sound.tickets runId other found
  | @returned runId ticket registry held steps outcome =>
    obtain ⟨durability, leases⟩ :=
      effects_sound steps (sound.durability.erase runId) (sound.leases_erase held)
    refine ⟨durability, leases, ?_, sound.mutations⟩
    intro id other found
    rw [Std.TreeMap.getElem?_erase] at found
    split at found
    · cases found
    · exact sound.tickets id other found
  | @gated gate mutations recorded ready mutating =>
    refine ⟨?_, ?_, sound.tickets, mutating⟩
    · apply sound.durability.gate
      intro _ _ _ _ identity _ withheld
      exact ready identity withheld
    · have same : CustodyStep world.tickets world.registry { world.registry with gate := gate } :=
        .same (fun _ => rfl) fun _ lease _ run known => recorded lease run known
      exact sound.leases.change same

theorem May.permits (world : RunWorld) (call : RunCall) : ({} : May).Permits world call := by
  cases call with
  | pinResult runId pinned =>
    cases pinned with
    | true => trivial
    | false => exact ⟨fun _ => True, trivial, fun _ _ _ _ _ => trivial, fun _ _ _ _ _ _ => trivial⟩
  | beginReserve plan operationId parallel => exact fun _ => trivial
  | finishObserved runId ending => exact fun _ _ _ => trivial
  | _ => trivial

theorem sound_preserved (formats : Formats) :
    (callSystem formats).Preserved RunWorld.Sound := by
  intro world invocation next sound taken
  obtain ⟨enabled, rfl⟩ := taken
  exact sound.took (sound.perform_took enabled (May.permits world invocation.call))

/-! ## Opening a disk -/

/-- What recovery does to a record: a run that was live is unknown from now on. -/
structure Recovery (old new : RunInfo) : Prop where
  intent : new.intent = old.intent
  pinned : new.pinned = old.pinned
  confirmed : new.cleanupConfirmed = old.cleanupConfirmed
  state : new.state = if old.state.isLive then .unknown else old.state

theorem recovered_recovery (run : RunInfo) : Recovery run run.recovered := by
  unfold RunInfo.recovered
  by_cases live : run.state.isLive = true
  · simp only [live, ↓reduceIte]
    split
    · exact ⟨rfl, rfl, rfl, by simp [live]⟩
    · exact ⟨rfl, rfl, rfl, by simp [live]⟩
  · simp only [live, Bool.false_eq_true, ↓reduceIte]
    split
    · exact ⟨rfl, rfl, rfl, by simp [live]⟩
    · exact ⟨rfl, rfl, rfl, by simp [live]⟩

theorem recoverRun_ok {formats : Formats} {answers : Answers} {seen : List String}
    {run recovered : RunInfo} (ok : recoverRun formats answers seen run = .ok recovered) :
    Recovery run recovered := by
  simp only [recoverRun, bind_eq_ok] at ok
  obtain ⟨_, _, _, _, _, _, _, _, _, _, _, _, _, _, _, _, _, _, _, _, _, _, done⟩ := ok
  cases done
  obtain ⟨intent, pinned, confirmed, state⟩ := recovered_recovery
    { run with structuredResult := run.structuredResult.map (answers.migrate run.runId) }
  exact ⟨intent, pinned, confirmed, state⟩

/-- Recovery goes through the records in order and drops none. -/
theorem recoverRuns_ok {formats : Formats} {answers : Answers} {runs recovered : List RunInfo}
    {seen : List String} (ok : recoverRuns formats answers seen runs = .ok recovered) :
    List.Forall₂ Recovery runs recovered := by
  induction runs generalizing seen recovered with
  | nil =>
    cases ok
    exact .nil
  | cons run rest inductionHypothesis =>
    simp only [recoverRuns, bind_eq_ok] at ok
    obtain ⟨first, one, others, more, done⟩ := ok
    cases done
    exact .cons (recoverRun_ok one) (inductionHypothesis more)

/-- The ledger that a host finds on the disk. -/
def onTop (disk : List RunLedger) : RunLedger :=
  disk.head?.getD { schema := 2, runs := [], retired := [] }

/-- The registry that `open` is about to store for the first time. -/
structure Loaded (formats : Formats) (disk : List RunLedger) (registry : RunRegistry) : Prop where
  valid : (onTop disk).validate formats = .ok ()
  runs : List.Forall₂ Recovery (onTop disk).runs registry.runs
  active : registry.active = ∅
  pending : registry.pendingStarts = []
  retired : registry.retired = (onTop disk).retired
  durable : registry.durable = disk
  withheld : ∀ identity, (registry.gate identity).providerReady = false

theorem unavailable_withheld (identities : List Repository) (gate : SourceGate)
    (withheld : ∀ identity, (gate identity).providerReady = false) (identity : PathBuf) :
    (identities.foldl (fun gate repository => gate.unavailable repository.identity) gate
      identity).providerReady = false := by
  induction identities generalizing gate with
  | nil => exact withheld identity
  | cons repository rest inductionHypothesis =>
    apply inductionHypothesis
    intro place
    show (gate.unavailable repository.identity place).providerReady = false
    by_cases here : place = repository.identity
    · simp [SourceGate.unavailable, here]
    · rw [SourceGate.unavailable, SourceGate.modify_other here]
      exact withheld place

theorem loadLedger_takes {formats : Formats} {answers : Nat → Answers} (disk : List RunLedger) :
    Takes answers (fun before after => after.durable = before.durable)
      (fun registry => registry = .onDisk .default disk) (loadLedger formats)
      (fun _ registry => Loaded formats disk registry) := by
  refine ReadOnly.answer.takes.bind fun answer => ?_
  refine (ReadOnly.lift _).takes.bind fun projects => ?_
  refine (Takes.update ?_).bind fun _ => ?_
  · intro _ _
    rfl
  refine (ReadOnly.lift _).takes.bind fun _ => ?_
  refine Takes.current.bind fun registry => ?_
  refine (Takes.lift _).bind fun _ => ?_
  refine (ReadOnly.lift _).takes.bind fun _ => ?_
  refine (Takes.lift _).bind fun runs => ?_
  refine (Takes.update ?_).consequence ?_
  · intro _ _
    rfl
  · intro _ after loaded
    obtain ⟨before, ⟨recovered, valid, rfl, start, rfl, rfl⟩, rfl⟩ := loaded
    refine ⟨valid, recoverRuns_ok recovered, rfl, rfl, rfl, rfl, ?_⟩
    apply unavailable_withheld
    intro identity
    rfl

/-- Either nothing was written, or what was loaded was stored and old history was
    removed from it. -/
theorem openDisk_cases (formats : Formats) (disk : List RunLedger) (answers : Nat → Answers) :
    (∃ error, (openDisk formats disk answers).result = .error error ∧
      (openDisk formats disk answers).state.durable = disk) ∨
    ∃ loaded answer, Loaded formats disk loaded ∧
      (loaded.ledger answer).validate formats = .ok () ∧
      ReflTransGen (Retention formats) (stored (loaded.ledger answer) loaded)
        (openDisk formats disk answers).state := by
  have loading : Takes answers _ _ (loadLedger formats) _ := loadLedger_takes disk
  have same := loading.keeps (fun registry => registry.durable = disk)
    (fun before after kept step => step.trans kept) 0 (.onDisk .default disk) rfl rfl
  have loads := (loading 0 (.onDisk .default disk) rfl).2
  simp only [openDisk, openRegistry, Bind.bind]
  cases load : loadLedger formats answers 0 (.onDisk .default disk) with
  | mk result asked loaded =>
    rw [load] at same loads
    cases result with
    | error error => exact .inl ⟨error, rfl, same⟩
    | ok done =>
      cases persist_cases formats answers asked loaded with
      | inl failed =>
        obtain ⟨error, failed⟩ := failed
        simp only [failed]
        exact .inl ⟨error, rfl, same⟩
      | inr written =>
        obtain ⟨valid, _, written⟩ := written
        simp only [written]
        refine .inr ⟨loaded, answers asked, loads done rfl, valid, ?_⟩
        have cleaning : Takes answers (Retention formats) (fun _ => True) (cleanupRetired formats) _ :=
          (cleanupRetired_takes _).mono fun _ _ => .inl
        have expiring : Takes answers (Retention formats) (fun _ => True) (expireHistory formats) _ :=
          expireHistory_takes
        have rest := cleaning.bind fun _ => expiring.strengthen fun _ _ => trivial
        exact (rest (asked + 1) _ trivial).1

section Opened

variable {formats : Formats} {disk : List RunLedger} {registry : RunRegistry}

/-- Recovered records correspond to the stored ones. -/
theorem Loaded.origin (loaded : Loaded formats disk registry) {run : RunInfo}
    (member : run ∈ registry.runs) : ∃ old ∈ (onTop disk).runs, Recovery old run := by
  obtain ⟨index, bound, same⟩ := List.mem_iff_getElem.mp member
  obtain ⟨lengths, recoveries⟩ := List.forall₂_iff_get.mp loaded.runs
  have within : index < (onTop disk).runs.length := by omega
  have recovery := recoveries index within bound
  simp only [List.get_eq_getElem, same] at recovery
  exact ⟨_, List.getElem_mem within, recovery⟩

theorem Loaded.recovered (loaded : Loaded formats disk registry) {old : RunInfo}
    (member : old ∈ (onTop disk).runs) : ∃ run ∈ registry.runs, Recovery old run := by
  obtain ⟨index, bound, same⟩ := List.mem_iff_getElem.mp member
  obtain ⟨lengths, recoveries⟩ := List.forall₂_iff_get.mp loaded.runs
  have within : index < registry.runs.length := by omega
  have recovery := recoveries index bound within
  simp only [List.get_eq_getElem, same] at recovery
  exact ⟨_, List.getElem_mem within, recovery⟩

theorem onTop_mem {run : RunInfo} (member : run ∈ (onTop disk).runs) :
    ∃ ledger ∈ disk, run ∈ ledger.runs := by
  cases disk with
  | nil => cases member
  | cons ledger rest => exact ⟨ledger, List.mem_cons_self, member⟩

/-- What recovery leaves is either confirmed or unknown, and never live. -/
theorem Recovery.resolved {old new : RunInfo} (recovery : Recovery old new)
    (unfinished : old.cleanupConfirmed = false → old.state.isLive = true ∨ old.state = .unknown) :
    new.state.isLive = false ∧ (new.cleanupConfirmed = false → new.state = .unknown) := by
  rw [recovery.state, recovery.confirmed]
  by_cases live : old.state.isLive = true
  · rw [if_pos live]
    exact ⟨rfl, fun _ => rfl⟩
  · rw [if_neg live]
    refine ⟨Bool.eq_false_iff.mpr live, ?_⟩
    intro open_
    cases unfinished open_ with
    | inl running => exact absurd running live
    | inr lost => exact lost

/-- What is loaded from a recoverable disk may be stored. -/
theorem Loaded.draft (loaded : Loaded formats disk registry)
    (recoverable : ∀ part, part <:+ disk → Recoverable part) : Draft ∅ registry := by
  have whole := recoverable disk (List.suffix_refl disk)
  have resolved {run : RunInfo} (member : run ∈ registry.runs) :
      run.state.isLive = false ∧ (run.cleanupConfirmed = false → run.state = .unknown) := by
    obtain ⟨old, among, recovery⟩ := loaded.origin member
    apply recovery.resolved
    obtain ⟨ledger, stored, listed⟩ := onTop_mem among
    exact whole.unfinished ledger stored old listed
  have names : registry.runs.map (·.runId) = (onTop disk).runs.map (·.runId) := by
    have same := loaded.runs.imp fun _ _ recovery =>
      (congrArg RunIntent.runId recovery.intent).symm
    apply (List.forall₂_eq_eq_eq ▸ List.forall₂_map_left_iff.mpr
      (List.forall₂_map_right_iff.mpr same) : _ = _).symm
  refine ⟨?_, ?_, ?_, ?_, ?_, ?_, ?_, ?_, ?_⟩
  · rw [names]
    exact (RunLedger.validate_runs loaded.valid).1
  · intro _ _ held
    simp at held
  · intro _ _ held
    rw [loaded.active] at held
    simp at held
  · intro run member open_
    exact .inr ((resolved member).2 open_)
  · intro run member _
    exact (resolved member).1
  · intro run member _ open_
    exact (resolved member).2 open_
  · intro ledger stored old recorded
    rw [loaded.durable] at stored ⊢
    cases whole.kept ledger stored old recorded with
    | inl confirmed => exact .inl confirmed
    | inr held =>
      obtain ⟨head, top, run, among, same⟩ := held
      have listed : run ∈ (onTop disk).runs := by
        rw [onTop, Option.mem_def.mp top]
        exact among
      obtain ⟨next, member, recovery⟩ := loaded.recovered listed
      exact .inr ⟨next, member, recovery.intent.trans same⟩
  · rw [loaded.durable]
    exact recoverable
  · intro _ _ _ _ identity _
    exact loaded.withheld identity

theorem Retention.run_effects {may : May} {before after : RunRegistry}
    {tickets : BTreeMap BeginTicket} (steps : ReflTransGen (Retention formats) before after) :
    ReflTransGen (Effect formats tickets may) before after :=
  ReflTransGen.mono (fun _ _ => Retention.effect) _ _ steps

/-- What is first stored is sound, and so is what retention makes of it. -/
theorem Loaded.sound {answer : Answers} {opened : RunRegistry}
    (loaded : Loaded formats disk registry)
    (recoverable : ∀ part, part <:+ disk → Recoverable part)
    (steps : ReflTransGen (Retention formats) (stored (registry.ledger answer) registry) opened) :
    (RunWorld.opened opened).Sound := by
  have draft := loaded.draft recoverable
  have durability : Durability ∅ (stored (registry.ledger answer) registry) :=
    draft.write (ledger_mirrors registry draft.unique answer)
  have unowned (id : String) : custody ∅ (stored (registry.ledger answer) registry) id = none := by
    simp [custody, stored, loaded.active]
  have leases : LeaseCustody (custody ∅ (stored (registry.ledger answer) registry))
      (stored (registry.ledger answer) registry).gate := by
    constructor
    · intro id lease owner
      rw [unowned] at owner
      cases owner
    · intro id other lease owner
      rw [unowned] at owner
      cases owner
  have effects : ReflTransGen (Effect formats ∅ {}) _ opened := Retention.run_effects steps
  obtain ⟨durability, leases⟩ := effects_sound effects durability leases
  refine ⟨durability, leases, ?_, ?_⟩
  · intro _ _ held
    simp [RunWorld.opened] at held
  · intro _ member
    cases member

end Opened

/-! ## Lives -/

/-- What holds of a host between two calls and of a disk between two hosts. -/
def Life.Sound : Life → Prop
  | .up world => world.Sound
  | .down disk => ∀ part, part <:+ disk → Recoverable part

theorem Recoverable.initial {disk part : List RunLedger} (initial : Life.Initial (.down disk))
    (suffix : part <:+ disk) : Recoverable part := by
  have empty : Recoverable [] := ⟨nofun, nofun⟩
  cases initial with
  | inl none =>
    subst none
    rw [List.suffix_nil.mp suffix]
    exact empty
  | inr one =>
    obtain ⟨ledger, rfl, unfinished⟩ := one
    cases suffix_cons suffix with
    | inr rest =>
      rw [List.suffix_nil.mp rest]
      exact empty
    | inl whole =>
      subst whole
      constructor
      · intro other member old recorded
        cases List.mem_singleton.mp member
        exact .inr ⟨ledger, rfl, old, recorded, rfl⟩
      · intro other member run recorded open_
        cases List.mem_singleton.mp member
        exact unfinished run recorded open_

theorem openDisk_recoverable {formats : Formats} {disk : List RunLedger}
    {answers : Nat → Answers} (recoverable : ∀ part, part <:+ disk → Recoverable part) :
    ∀ part, part <:+ (openDisk formats disk answers).state.durable → Recoverable part := by
  cases openDisk_cases formats disk answers with
  | inl failed =>
    obtain ⟨_, _, same⟩ := failed
    rw [same]
    exact recoverable
  | inr opened =>
    obtain ⟨registry, answer, loaded, _, steps⟩ := opened
    exact (loaded.sound recoverable steps).durability.disks

theorem life_sound (formats : Formats) : (lifeSystem formats).Invariant Life.Sound where
  initial life initial := by
    cases life with
    | up world => cases initial
    | down disk => exact fun part suffix => Recoverable.initial initial suffix
  preserved before event after sound taken := by
    cases taken with
    | @opened disk answers succeeded =>
      cases openDisk_cases formats disk answers with
      | inl failed =>
        obtain ⟨_, failed, _⟩ := failed
        rw [succeeded] at failed
        cases failed
      | inr opened =>
        obtain ⟨registry, answer, loaded, _, steps⟩ := opened
        exact loaded.sound sound steps
    | called enabled => exact sound_preserved formats sound ⟨enabled, rfl⟩
    | cut enabled earlier reached =>
      intro part suffix
      exact (sound_preserved formats sound ⟨enabled, rfl⟩).durability.disks part
        (suffix.trans reached)
    | cutOpening earlier reached =>
      intro part suffix
      exact openDisk_recoverable sound part (suffix.trans reached)

end Idk
