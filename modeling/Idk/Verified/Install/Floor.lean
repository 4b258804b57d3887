import Idk.Verified.Install.Recovery

/-!
# The version floor

`Level` strengthens what is recoverable by what the floor has to do with the
transactions: the active generation and the target of a pending one are not below it.
Only the step that commits an activation raises the floor.
-/

namespace Idk.Verified.Install

open Idk.Logic Idk.Install

variable {κ : Type}

/-! ## The order of versions -/

theorem le_trans {first second third : Version} (lower : first.le second = true)
    (upper : second.le third = true) : first.le third = true := by
  simp only [Version.le, Bool.or_eq_true, Bool.and_eq_true, decide_eq_true_eq, beq_iff_eq] at *
  omega

theorem le_of_not_le {first second : Version} (above : first.le second = false) :
    second.le first = true := by
  simp only [Version.le, Bool.or_eq_false_iff, Bool.and_eq_false_iff, Bool.or_eq_true,
    Bool.and_eq_true, decide_eq_true_eq, decide_eq_false_iff_not, beq_iff_eq,
    beq_eq_false_iff_ne] at *
  omega

/-- The later floor is not below the earlier one. -/
def FloorLe (earlier later : Option String) : Prop :=
  ∀ floor, earlier = some floor → ∃ next low high, later = some next ∧
    versionTuple floor = .ok low ∧ versionTuple next = .ok high ∧ low.le high = true

theorem FloorLe.trans {first second third : Option String} (lower : FloorLe first second)
    (upper : FloorLe second third) : FloorLe first third := by
  intro floor known
  obtain ⟨middle, low, mid, between, parsed, parsedMiddle, below⟩ := lower floor known
  obtain ⟨next, same, high, above, sameParsed, parsedNext, later⟩ := upper middle between
  obtain rfl : mid = same := Except.ok.inj (parsedMiddle.symm.trans sameParsed)
  exact ⟨next, low, high, above, parsed, parsedNext, le_trans below later⟩

theorem Valid.floor_le {state : InstallationState} (valid : Valid state) :
    FloorLe state.committedVersionFloor state.committedVersionFloor := by
  intro floor known
  obtain ⟨⟨version, parsed⟩, _⟩ := valid.floor floor known
  exact ⟨floor, version, version, known, parsed, parsed, le_refl version⟩

/-! ## Committing -/

/-- The active generation is not below the floor. -/
def AtFloor (state : InstallationState) : Prop :=
  ∀ name, state.active = some name → ∃ generation,
    state.generations.get? name = some generation ∧ AboveFloor state generation

/-- What `committed` makes of a state. -/
theorem committed_cases {before after : InstallationState} {target : Option Generation}
    (committed : before.committed target = .ok after) :
    after.active = target.map (·.name) ∧ after.generations = before.generations ∧
      (after.committedVersionFloor = before.committedVersionFloor ∨
        ∃ generation, target = some generation ∧ before.raisesFloor generation = .ok true ∧
          after.committedVersionFloor = some generation.version) := by
  -- What `committed` returns is the state it has checked.
  have returned : ∀ state : InstallationState,
      (do state.validate; pure state : Result InstallationState) = .ok after → state = after := by
    intro state checked
    obtain ⟨_, _, same⟩ := bind_eq_ok.mp checked
    exact Except.ok.inj same
  cases target with
  | none =>
    obtain rfl := returned _ committed
    exact ⟨rfl, rfl, .inl rfl⟩
  | some generation =>
    obtain ⟨raises, raised, committed⟩ := bind_eq_ok.mp committed
    cases raises with
    | false =>
      obtain rfl := returned _ committed
      exact ⟨rfl, rfl, .inl rfl⟩
    | true =>
      obtain rfl := returned _ committed
      exact ⟨rfl, rfl, .inr ⟨generation, rfl, raised, rfl⟩⟩

/-- A floor that is raised was below the target. -/
theorem raisesFloor_below {state : InstallationState} {target : Generation}
    (raises : state.raisesFloor target = .ok true) {floor : String}
    (known : state.committedVersionFloor = some floor) : ∃ low high,
      versionTuple floor = .ok low ∧ versionTuple target.version = .ok high ∧
        low.le high = true := by
  rw [InstallationState.raisesFloor, known] at raises
  obtain ⟨high, parsed, raises⟩ := bind_eq_ok.mp raises
  obtain ⟨low, parsedFloor, raises⟩ := bind_eq_ok.mp raises
  have above : high.le low = false := by simpa [pure, Except.pure] using raises
  exact ⟨low, high, parsedFloor, parsed, le_of_not_le above⟩

theorem committed_floor {before after : InstallationState} {target : Option Generation}
    (valid : Valid before) (committed : before.committed target = .ok after) :
    FloorLe before.committedVersionFloor after.committedVersionFloor := by
  obtain ⟨_, _, floor⟩ := committed_cases committed
  cases floor with
  | inl same => exact same ▸ valid.floor_le
  | inr raised =>
    obtain ⟨generation, _, raises, raised⟩ := raised
    intro floor known
    obtain ⟨low, high, parsed, parsedTarget, below⟩ := raisesFloor_below raises known
    exact ⟨generation.version, low, high, raised, parsed, parsedTarget, below⟩

theorem committed_atFloor {before after : InstallationState} {target : Option Generation}
    (valid : Valid before) (committed : before.committed target = .ok after)
    (known : ∀ generation, target = some generation →
      before.generations.get? generation.name = some generation)
    (above : ∀ generation, target = some generation → AboveFloor before generation) :
    AtFloor after := by
  obtain ⟨active, generations, floor⟩ := committed_cases committed
  intro name named
  cases target with
  | none => simp [active] at named
  | some generation =>
    obtain rfl : generation.name = name := by simpa [active] using named
    have member := known generation rfl
    refine ⟨generation, generations ▸ member, ?_⟩
    cases floor with
    | inl same =>
      intro limit recorded
      exact above generation rfl limit (same ▸ recorded)
    | inr raised =>
      obtain ⟨other, same, _, raised⟩ := raised
      obtain rfl := Option.some.inj same
      intro limit recorded
      obtain rfl : generation.version = limit := by simpa [raised] using recorded
      obtain ⟨version, parsed, _⟩ := valid.versionOf_ok member
      exact ⟨version, version, parsed, parsed, le_refl version⟩

/-! ## The installation directory -/

/-- Neither the active generation nor the target of a pending transaction is below the floor. -/
structure Level (root : Prefix κ) : Prop where
  recorded : AtFloor root.recorded
  pending : ∀ journal, root.journal = some journal → AtFloor journal.before ∧
    ∀ target, journal.target = some target → AboveFloor journal.before target

/-- The state of an activation becomes the committed one. -/
def Commits (before after : Prefix κ) : Prop :=
  ∃ journal target, before.journal = some journal ∧ journal.target = some target ∧
    before.recorded = journal.before ∧ before.recorded.active ≠ some target.name ∧
      after.recorded.active = some target.name ∧
      before.recorded.committed (some target) = .ok after.recorded

/-- What a step may do to the floor. -/
structure Raised (before after : Prefix κ) : Prop where
  level : Level after
  floor : FloorLe before.recorded.committedVersionFloor after.recorded.committedVersionFloor
  committed : after.recorded.committedVersionFloor = before.recorded.committedVersionFloor ∨
    Commits before after

theorem Recoverable.valid {root : Prefix κ} (recoverable : Recoverable root) :
    Valid root.recorded := by
  cases recoverable with
  | settled state settled => exact settled.recorded ▸ settled.valid
  | underway journal sound underway => exact underway.recorded ▸ sound.valid
  | committed journal after sound committed =>
    obtain ⟨known, done, valid, _⟩ := sound.committed_ok
    obtain rfl : known = after := Except.ok.inj (done.symm.trans committed.committed)
    exact committed.recorded ▸ valid

/-- A step that leaves the recorded state and the journal as they are. -/
theorem Level.unchanged {before after : Prefix κ} (recoverable : Recoverable before)
    (level : Level before) (state : after.recorded = before.recorded)
    (journal : ∀ pending, after.journal = some pending → before.journal = some pending) :
    Raised before after where
  level := ⟨state ▸ level.recorded, fun pending same => level.pending pending (journal pending same)⟩
  floor := state ▸ recoverable.valid.floor_le
  committed := .inl (by rw [state])

theorem moves_raised {before after : Prefix κ} (recoverable : Recoverable before)
    (level : Level before) (moves : Moves before after) : Raised before after := by
  cases moves with
  | staged idle still active floor inventory =>
    refine ⟨⟨?_, ?_⟩, ?_, .inl floor⟩
    · intro name named
      obtain ⟨generation, member, above⟩ := level.recorded name (active ▸ named)
      exact ⟨generation, inventory name generation member,
        fun limit known => above limit (floor ▸ known)⟩
    · intro journal pending
      simp [still] at pending
    · exact floor ▸ recoverable.valid.floor_le
  | began journal idle pending recorded started above =>
    refine ⟨⟨recorded ▸ level.recorded, ?_⟩, ?_, .inl (by rw [recorded])⟩
    · intro known same
      obtain rfl : journal = known := Option.some.inj (pending.symm.trans same)
      exact ⟨started ▸ level.recorded, above⟩
    · exact recorded ▸ recoverable.valid.floor_le
  | linked journal recorded =>
    exact level.unchanged recoverable recorded fun pending same => journal ▸ same
  | committed journal pending kept recorded committed =>
    obtain ⟨sound, _⟩ := recoverable.pending pending
    obtain ⟨started, above⟩ := level.pending journal pending
    obtain ⟨active, _, floor⟩ := committed_cases committed
    refine ⟨⟨committed_atFloor sound.valid committed sound.known above, ?_⟩, ?_, ?_⟩
    · intro known same
      obtain rfl : journal = known := Option.some.inj (kept.symm.trans same)
      exact ⟨started, above⟩
    · rw [recorded]
      exact committed_floor sound.valid committed
    · cases floor with
      | inl same => exact .inl (same.trans (by rw [recorded]))
      | inr raised =>
        obtain ⟨generation, target, _, _⟩ := raised
        refine .inr ⟨journal, generation, pending, target, recorded, ?_, ?_, ?_⟩
        · exact recorded ▸ sound.moves generation target
        · simp [active, target]
        · rw [recorded, ← target, committed]
  | ended quiet recorded =>
    exact level.unchanged recoverable recorded fun pending same => by simp [quiet] at same

variable [DecidableEq κ]

theorem release_raised (id : κ) {root : Prefix κ} (recoverable : Recoverable root)
    (level : Level root) : Raised root (Installer.release id root) := by
  have kept : (Installer.release id root).recorded = root.recorded ∧
      (Installer.release id root).journal = root.journal := by
    unfold Installer.release
    split <;> exact ⟨rfl, rfl⟩
  exact level.unchanged recoverable kept.1 fun pending same => kept.2 ▸ same

theorem change_raised {id : κ} {before after : Prefix κ} (recoverable : Recoverable before)
    (level : Level before) (change : Change id before after) : Raised before after := by
  cases change with
  | same result =>
    rw [result]
    exact level.unchanged recoverable rfl fun _ same => same
  | locked free result =>
    rw [result]
    exact level.unchanged recoverable rfl fun _ same => same
  | released result =>
    rw [result]
    exact release_raised id recoverable level
  | changed held kept recovered moves => exact moves_raised recoverable level moves

/-! ## Every run -/

/-- An installation that no call has touched yet, such as an empty directory. -/
structure Fresh (root : Prefix κ) : Prop where
  consistent : Consistent root
  level : AtFloor root.recorded

variable {start pool : Pool κ Call InstallAnswer (Prefix κ) String InstallationState}
  {trace : List (ThreadEvent κ Call String InstallationState)}

/-- What holds of a pool in which nothing is below the floor. -/
def Floored (pool : Pool κ Call InstallAnswer (Prefix κ) String InstallationState) : Prop :=
  installerOutline.Holds pool ∧ Level pool.shared

theorem step_raised {before after : Pool κ Call InstallAnswer (Prefix κ) String InstallationState}
    {event : ThreadEvent κ Call String InstallationState} (floored : Floored before)
    (step : Interleaving.Step installer before event after) :
    installerOutline.Holds after ∧ Raised before.shared after.shared := by
  obtain ⟨holds, level⟩ := floored
  obtain ⟨later, took⟩ := installerOutline.holds_step holds step
  refine ⟨later, ?_⟩
  cases took with
  | start same unused calls =>
    rw [same]
    exact level.unchanged holds.inv rfl fun _ pending => pending
  | turn known allowed calls => exact change_raised holds.inv level allowed
  | finish known same done calls =>
    rw [same]
    exact level.unchanged holds.inv rfl fun _ pending => pending
  | die known buried calls =>
    rw [buried]
    exact release_raised _ holds.inv level

theorem floored_preserved : (installer (κ := κ)).system Fresh |>.Preserved Floored := by
  intro before event after floored step
  obtain ⟨holds, raised⟩ := step_raised floored step
  exact ⟨holds, raised.level⟩

theorem run_floored (initial : (installer.system Fresh).init start)
    (run : (installer.system Fresh).Run start trace pool) : Floored pool := by
  have starts : ∀ root : Prefix κ, Fresh root →
      Recoverable root ∧ ∀ id, root.lock ≠ some id := fun root fresh =>
    ⟨.settled _ fresh.consistent.settled, fun id => by simp [fresh.consistent.free]⟩
  refine floored_preserved.run run ⟨(installerOutline.sound starts).initial initial, ?_⟩
  have fresh := initial.1
  refine ⟨fresh.level, fun journal pending => ?_⟩
  simp [fresh.consistent.settled.quiet] at pending

/-- The floor never falls, and rises only in a step that commits an activation. -/
theorem run_raised {last : Pool κ Call InstallAnswer (Prefix κ) String InstallationState}
    {rest : List (ThreadEvent κ Call String InstallationState)} (floored : Floored pool)
    (run : (installer.system Fresh).Run pool rest last) :
    FloorLe pool.shared.recorded.committedVersionFloor last.shared.recorded.committedVersionFloor := by
  induction run with
  | refl => exact floored.1.inv.valid.floor_le
  | tail earlier taken inductionHypothesis =>
    have reached := floored_preserved.run earlier floored
    exact inductionHypothesis.trans (step_raised reached taken).2.floor

/-- The generation is in the inventory and not below the floor. -/
def Legitimate (root : Prefix κ) (name : String) : Prop :=
  ∃ generation, root.recorded.generations.get? name = some generation ∧
    AboveFloor root.recorded generation

omit [DecidableEq κ] in
theorem current_legitimate {root : Prefix κ} (recoverable : Recoverable root) (level : Level root)
    {name : String} (current : root.current = some (generationLink name)) :
    Legitimate root name := by
  have active : ∀ state, root.recorded = state →
      root.current = state.active.map generationLink → Legitimate root name := by
    intro state recorded link
    rw [current] at link
    obtain ⟨other, named, same⟩ := Option.map_eq_some_iff.mp link.symm
    obtain rfl : other = name := by simpa [generationLink] using same
    exact level.recorded other (recorded ▸ named)
  cases recoverable with
  | settled state settled => exact active state settled.recorded settled.links.1
  | committed journal after sound committed => exact active after committed.recorded committed.links.1
  | underway journal sound underway =>
    cases underway.current with
    | inl old => exact active journal.before underway.recorded old
    | inr new =>
      rw [current] at new
      obtain ⟨target, named, same⟩ := Option.map_eq_some_iff.mp new.symm
      obtain rfl : target.name = name := by simpa [generationLink] using same
      have recorded := underway.recorded
      refine ⟨target, recorded ▸ sound.known target named, ?_⟩
      exact recorded ▸ (level.pending journal underway.pending).2 target named

/-- The active version is not above the floor. -/
def BelowFloor (state : InstallationState) : Prop :=
  ∀ name, state.active = some name → ∃ floor version limit,
    state.committedVersionFloor = some floor ∧ state.versionOf name = .ok version ∧
      versionTuple floor = .ok limit ∧ version.le limit = true

/-- Version floor: after any calls, each cut off wherever it was, the recorded active version
    is not above the floor; what is active or linked is not below it; and from there on the
    floor never falls, and stays as it is unless an activation is committed. -/
theorem version_floor (initial : (installer.system Fresh).init start)
    (run : (installer.system Fresh).Run start trace pool) :
    BelowFloor pool.shared.recorded ∧
    (∀ name, pool.shared.recorded.active = some name ∨
      pool.shared.current = some (generationLink name) → Legitimate pool.shared name) ∧
    ∀ rest last, (installer.system Fresh).Run pool rest last →
      FloorLe pool.shared.recorded.committedVersionFloor
        last.shared.recorded.committedVersionFloor ∧
      (last.shared.recorded.committedVersionFloor = pool.shared.recorded.committedVersionFloor ∨
        System.Run.Released (fun before _ after => Commits before.shared after.shared)
          (installer.system Fresh) pool rest last) := by
  have floored := run_floored initial run
  refine ⟨floored.1.inv.valid.below, fun name activated => ?_, fun rest last more => ?_⟩
  · cases activated with
    | inl active => exact floored.2.recorded name active
    | inr current => exact current_legitimate floored.1.inv floored.2 current
  · refine ⟨run_raised floored more, ?_⟩
    refine System.Run.keeps_until Floored
      (fun later => later.shared.recorded.committedVersionFloor =
        pool.shared.recorded.committedVersionFloor) _ floored_preserved ?_ more floored rfl
    intro before event after reached kept step
    exact (step_raised reached step).2.committed.imp_left (·.trans kept)

/-- An empty directory after an uninstallation that was cut off. -/
theorem version_floor_sample :
    ∃ pool : Pool Nat Call InstallAnswer (Prefix Nat) String InstallationState,
      (installer.system Fresh).Reachable pool ∧
      pool.shared.journal = some ⟨1, .default, none⟩ ∧ BelowFloor pool.shared.recorded := by
  have cut := sampleUninstall_cut
  simp only [Option.map_eq_some_iff, Prod.mk.injEq] at cut
  obtain ⟨⟨root, result⟩, ran, free, journal⟩ := cut
  obtain ⟨turns, run⟩ := Interleaving.calls_alone installer Fresh sampleAnswers samplePool 1
    .uninstallEntrypoints rfl rfl ran
  have initial : (installer.system Fresh).init samplePool :=
    ⟨⟨⟨rfl, rfl, rfl, Valid.default, rfl, rfl⟩, nofun⟩, rfl, rfl⟩
  exact ⟨_, ⟨samplePool, _, initial, run⟩, journal, (version_floor initial run).1⟩

end Idk.Verified.Install
