import Idk.Install.Installer
import Idk.Verified.Install.State

/-!
# Crash recovery of the installer

`Recoverable` is what every action of an installation, an uninstallation and a recovery
leaves behind: links and state that are committed, links of a transaction whose journal
says what they may be, or a committed transaction whose journal is still there.  From
each of the three a recovery that nothing disturbs ends in the state before the
transaction or in the committed one.
-/

namespace Idk.Verified.Install

open Idk.Logic Idk.Install
open Idk.Logic.Program (Stable Triple Ends)

variable {κ : Type}

/-! ## What every action leaves behind -/

/-- A journal that `read_journal` accepts, of a transaction that changes something. -/
structure Sound (journal : Journal) : Prop where
  schema : journal.schema = 1
  valid : Valid journal.before
  known : ∀ target, journal.target = some target →
    journal.before.generations.get? target.name = some target
  moves : ∀ target, journal.target = some target → journal.before.active ≠ some target.name

/-- The transaction has not been committed; its links are between two states. -/
structure Underway (journal : Journal) (root : Prefix κ) : Prop where
  pending : root.journal = some journal
  recorded : root.recorded = journal.before
  current : root.current = journal.before.active.map generationLink ∨
    root.current = journal.target.map fun target => generationLink target.name
  idk : root.idk = none ∨ root.idk = some launcherLink ∧
    (journal.before.active.isSome ∨ journal.target.isSome)

/-- The transaction is committed. -/
structure Committed (journal : Journal) (after : InstallationState) (root : Prefix κ) : Prop where
  pending : root.journal = some journal
  committed : journal.before.committed journal.target = .ok after
  recorded : root.recorded = after
  links : root.Linked after

/-- No transaction. -/
structure Settled (state : InstallationState) (root : Prefix κ) : Prop where
  quiet : root.journal = none
  recorded : root.recorded = state
  valid : Valid state
  links : root.Linked state

/-- The invariant of the installation directory. -/
inductive Recoverable (root : Prefix κ) : Prop where
  | settled (state : InstallationState) (settled : Settled state root)
  | underway (journal : Journal) (sound : Sound journal) (underway : Underway journal root)
  | committed (journal : Journal) (after : InstallationState) (sound : Sound journal)
      (committed : Committed journal after root)

theorem Sound.validate {journal : Journal} (sound : Sound journal) :
    journal.validate = .ok () := by
  refine bind_eq_ok.mpr ⟨(), by simp [sound.schema], ?_⟩
  refine bind_eq_ok.mpr ⟨(), validate_iff.mpr sound.valid, option_forM_ok.mpr fun target same => ?_⟩
  have member := sound.known target same
  exact bind_eq_ok.mpr ⟨(), (sound.valid.entries _ (get_member member)).1, by simp [member]⟩

theorem Sound.committed_ok {journal : Journal} (sound : Sound journal) :
    ∃ after, journal.before.committed journal.target = .ok after ∧ Valid after ∧
      after.active = journal.target.map (·.name) := by
  obtain ⟨after, done, valid, active, _⟩ := Install.committed_ok sound.valid sound.known
  exact ⟨after, done, valid, active⟩

/-- A transaction that commits the state it started from has no links to restore. -/
theorem Underway.unchanged {journal : Journal} {root : Prefix κ} (sound : Sound journal)
    (underway : Underway journal root)
    (same : journal.before.committed journal.target = .ok journal.before) :
    root.Linked journal.before := by
  obtain ⟨after, done, _, active⟩ := sound.committed_ok
  obtain rfl : after = journal.before := Except.ok.inj (done.symm.trans same)
  cases target : journal.target with
  | some generation =>
    exact absurd (by rw [active, target]; rfl) (sound.moves generation target)
  | none =>
    have idle : journal.before.active = none := by rw [active, target]; rfl
    have current : root.current = none := by simpa [idle, target] using underway.current
    have launcher : root.idk = none := by simpa [idle, target] using underway.idk
    exact ⟨by simp [current, idle], by simp [launcher, idle]⟩

theorem Recoverable.idle {root : Prefix κ} (recoverable : Recoverable root)
    (missing : root.journal = none) : Settled root.recorded root := by
  cases recoverable with
  | settled state settled => exact settled.recorded ▸ settled
  | underway journal sound underway => simp [underway.pending] at missing
  | committed journal after sound committed => simp [committed.pending] at missing

theorem Recoverable.pending {root : Prefix κ} {journal : Journal} (recoverable : Recoverable root)
    (found : root.journal = some journal) :
    Sound journal ∧ (Underway journal root ∨ ∃ after, Committed journal after root) := by
  cases recoverable with
  | settled state settled => simp [settled.quiet] at found
  | underway other sound underway =>
    obtain rfl : other = journal := Option.some.inj (underway.pending.symm.trans found)
    exact ⟨sound, .inl underway⟩
  | committed other after sound committed =>
    obtain rfl : other = journal := Option.some.inj (committed.pending.symm.trans found)
    exact ⟨sound, .inr ⟨after, committed⟩⟩

/-- When the committed state is recorded, only the journal is left to remove. -/
theorem Recoverable.committed_links {root : Prefix κ} {journal : Journal}
    (recoverable : Recoverable root) (found : root.journal = some journal)
    (committed : journal.before.committed journal.target = .ok root.recorded) :
    Valid root.recorded ∧ root.Linked root.recorded := by
  obtain ⟨sound, phase⟩ := recoverable.pending found
  obtain ⟨after, done, valid, _⟩ := sound.committed_ok
  obtain rfl : after = root.recorded := Except.ok.inj (done.symm.trans committed)
  refine ⟨valid, ?_⟩
  cases phase with
  | inl underway =>
    rw [underway.recorded] at committed ⊢
    exact underway.unchanged sound committed
  | inr finished =>
    obtain ⟨_, finished⟩ := finished
    exact finished.recorded ▸ finished.links

/-- When it is not, the transaction is still under way. -/
theorem Recoverable.not_committed {root : Prefix κ} {journal : Journal}
    (recoverable : Recoverable root) (found : root.journal = some journal)
    (different : journal.before.committed journal.target ≠ .ok root.recorded) :
    Sound journal ∧ Underway journal root := by
  obtain ⟨sound, phase⟩ := recoverable.pending found
  cases phase with
  | inl underway => exact ⟨sound, underway⟩
  | inr finished =>
    obtain ⟨after, finished⟩ := finished
    exact absurd (finished.recorded ▸ finished.committed) different

/-! ## A recovery that nothing disturbs -/

/-- Every access succeeds; in particular the files of a generation are those of its archive. -/
def intact : InstallAnswer := ⟨.ok (), true⟩

/-- Undisturbed, the program returns `value` and leaves `last`. -/
def Runs {α : Type} (program : Installer.Step κ α) (root : Prefix κ) (value : α)
    (last : Prefix κ) : Prop :=
  program.alone (fun _ => intact) 0 root = some (last, .ok value)

section Undisturbed

variable {root middle last : Prefix κ}

theorem Runs.bind {α β : Type} {first : Installer.Step κ α} {rest : α → Installer.Step κ β}
    {value : α} {result : β} (start : Runs first root value middle)
    (next : Runs (rest value) middle result last) : Runs (first >>= rest) root result last :=
  (Program.alone_bind intact start rest).trans next

theorem runs_value {α : Type} (value : α) : Runs (pure value) root value root := rfl

theorem runs_unseen : Runs Installer.unseen root () root := rfl

theorem runs_change (change : Prefix κ → Prefix κ) :
    Runs (Installer.change change) root () (change root) := rfl

theorem runs_read {α : Type} {result : Prefix κ → Result α} {value : α}
    (ok : result root = .ok value) :
    Runs (Installer.access fun root => (root, result root)) root value root := by
  simp [Runs, Installer.access, Program.alone_action, intact, ok]

theorem runs_check {α : Type} {result : Result α} {value : α} (ok : result = .ok value) :
    Runs (liftM result) root value root := by
  simp [Runs, ok]

theorem runs_ensure {condition : Bool} {message : String} (holds : condition = true) :
    Runs (liftM (ensure condition message)) root () root :=
  runs_check (by simp [holds])

theorem runs_verifyGeneration {generation : Generation} (valid : generation.validate = .ok ()) :
    Runs (Installer.verifyGeneration generation) root () root :=
  (runs_check valid).bind runs_unseen

theorem runs_readCurrent : Runs Installer.readCurrent root root.current root := runs_read rfl

theorem runs_readIdk : Runs Installer.readIdk root root.idk root := runs_read rfl

theorem runs_checkLinks {state : InstallationState} (links : root.Linked state) :
    Runs (Installer.checkLinks state) root () root := by
  refine runs_readCurrent.bind ((runs_ensure ?_).bind (runs_readIdk.bind (runs_ensure ?_)))
  · simp [links.1]
  · simp [links.2]

theorem runs_readState (valid : Valid root.recorded) :
    Runs Installer.readState root root.recorded root :=
  runs_read (bind_eq_ok.mpr ⟨(), validate_iff.mpr valid, rfl⟩)

theorem runs_writeState {state : InstallationState} (valid : Valid state) :
    Runs (Installer.writeState state) root () { root with state := some state } :=
  (runs_check (validate_iff.mpr valid)).bind (runs_unseen.bind ((runs_change _).bind runs_unseen))

theorem runs_removeJournal : Runs Installer.removeJournal root () { root with journal := none } :=
  (runs_change _).bind runs_unseen

theorem runs_setActive (name : Option String) :
    Runs (Installer.setActive name) root () { root with current := name.map generationLink } := by
  cases name with
  | some target => exact runs_unseen.bind ((runs_change _).bind runs_unseen)
  | none =>
    have remove : Runs Installer.removeCurrent root () { root with current := none } := by
      refine runs_readCurrent.bind ?_
      cases found : root.current with
      | none =>
        have same : { root with current := none } = root := by rw [← found]
        exact same ▸ runs_value ()
      | some actual => exact (runs_change _).bind runs_unseen
    exact remove.bind runs_unseen

/-- The launcher is absent or the installer's own. -/
def Managed (root : Prefix κ) : Prop := root.idk = none ∨ root.idk = some launcherLink

theorem runs_ensureLauncher (managed : Managed root) :
    Runs Installer.ensureLauncher root () { root with idk := some launcherLink } := by
  refine runs_readIdk.bind ?_
  cases managed with
  | inl absent =>
    rw [absent]
    exact (runs_change _).bind runs_unseen
  | inr present =>
    rw [present]
    have same : { root with idk := some launcherLink } = root := by rw [← present]
    rw [same]
    exact (runs_ensure (by simp)).bind runs_unseen

theorem runs_removeLauncher (managed : Managed root) :
    Runs Installer.removeLauncher root () { root with idk := none } := by
  refine runs_readIdk.bind ?_
  cases managed with
  | inl absent =>
    have same : { root with idk := none } = root := by rw [← absent]
    rw [absent, same]
    exact runs_value ()
  | inr present =>
    rw [present]
    exact (runs_ensure (by simp)).bind ((runs_change _).bind runs_unseen)

/-- What a recovery may end in. -/
def Legal (root : Prefix κ) (state : InstallationState) : Prop :=
  match root.journal with
  | none => state = root.recorded
  | some journal => state = journal.before ∨ journal.before.committed journal.target = .ok state

/-- Restoring ends in the state before the transaction, with its links. -/
theorem runs_restore {journal : Journal} (sound : Sound journal) (underway : Underway journal root) :
    ∃ last, Runs (Installer.restore journal) root () last ∧ last.lock = root.lock ∧
      Settled journal.before last := by
  have managed : Managed root := underway.idk.imp_right And.left
  have legal : (root.current == journal.before.active.map generationLink ||
      root.current == journal.target.map fun target => generationLink target.name) = true := by
    simpa using underway.current
  have finish : ∀ linked : Prefix κ, Runs (do
      Installer.writeState journal.before
      Installer.removeJournal) linked ()
      { linked with state := some journal.before, journal := none } :=
    fun linked => (runs_writeState sound.valid).bind runs_removeJournal
  refine ⟨{ root with
    state := some journal.before
    journal := none
    current := journal.before.active.map generationLink
    idk := journal.before.active.map fun _ => launcherLink }, ?_, rfl, rfl, rfl, sound.valid, rfl, rfl⟩
  refine runs_readCurrent.bind ((runs_ensure legal).bind ?_)
  cases active : journal.before.active with
  | some previous =>
    obtain ⟨generation, member⟩ := sound.valid.known previous active
    have entry := sound.valid.entries _ (get_member member)
    refine (runs_check (context_eq_ok.mpr member)).bind ((runs_verifyGeneration entry.1).bind ?_)
    exact (runs_setActive (some previous)).bind ((runs_ensureLauncher (by exact managed)).bind (finish _))
  | none =>
    exact (runs_removeLauncher managed).bind ((runs_setActive none).bind (finish _))

/-- Whatever a crash has left, the recovery reaches the state before the transaction or the
    committed one. -/
theorem runs_recover (recoverable : Recoverable root) :
    ∃ state last, Runs Installer.recoverLocked root state last ∧ last.lock = root.lock ∧
      Settled state last ∧ Legal root state := by
  cases found : root.journal with
  | none =>
    have settled := recoverable.idle found
    refine ⟨root.recorded, root, ?_, rfl, settled, by simp [Legal, found]⟩
    have read : Runs Installer.readJournal root none root :=
      runs_read (bind_eq_ok.mpr ⟨(), option_forM_ok.mpr (by simp [found]), by rw [found]; rfl⟩)
    exact read.bind <| (runs_readState settled.valid).bind ((runs_checkLinks settled.links).bind (runs_value _))
  | some journal =>
    obtain ⟨sound, _⟩ := recoverable.pending found
    obtain ⟨after, committed, valid, _⟩ := sound.committed_ok
    have read : Runs Installer.readJournal root (some journal) root := by
      refine runs_read (bind_eq_ok.mpr ⟨(), option_forM_ok.mpr ?_, by rw [found]; rfl⟩)
      intro pending same
      obtain rfl : journal = pending := Option.some.inj (found.symm.trans same)
      exact sound.validate
    by_cases same : root.recorded = after
    · obtain ⟨recorded, links⟩ := recoverable.committed_links found (same ▸ committed)
      refine ⟨root.recorded, { root with journal := none }, ?_, rfl, ⟨rfl, rfl, recorded, links⟩,
        by simp [Legal, found, same, committed]⟩
      refine read.bind ((runs_readState recorded).bind ((runs_check committed).bind ?_))
      have finish : Runs (do
          Installer.checkLinks root.recorded
          Installer.removeJournal
          pure root.recorded) root root.recorded { root with journal := none } :=
        (runs_checkLinks links).bind (runs_removeJournal.bind (runs_value _))
      rw [if_pos same]
      cases target : journal.target with
      | none => exact finish
      | some generation =>
        have entry := sound.valid.entries _ (get_member (sound.known generation target))
        exact (runs_verifyGeneration entry.1).bind finish
    · have other : journal.before.committed journal.target ≠ .ok root.recorded := by
        rw [committed]
        exact fun equal => same (Except.ok.inj equal).symm
      obtain ⟨_, underway⟩ := recoverable.not_committed found other
      obtain ⟨last, restored, lock, settled⟩ := runs_restore sound underway
      refine ⟨journal.before, last, ?_, lock, settled, by simp [Legal, found]⟩
      have recorded : Valid root.recorded := underway.recorded ▸ sound.valid
      refine read.bind ((runs_readState recorded).bind ((runs_check committed).bind ?_))
      rw [if_neg same]
      refine (runs_ensure (by simp [underway.recorded])).bind ?_
      exact restored.bind (runs_value _)

end Undisturbed

/-! ## What a call may do -/

/-- The target is not older than what has been committed. -/
def AboveFloor (state : InstallationState) (target : Generation) : Prop :=
  ∀ floor, state.committedVersionFloor = some floor → ∃ version limit,
    versionTuple target.version = .ok version ∧ versionTuple floor = .ok limit ∧
      limit.le version = true

/-- How an action takes a transaction on. -/
inductive Moves (before after : Prefix κ) : Prop where
  | staged (idle : before.journal = none) (still : after.journal = none)
      (active : after.recorded.active = before.recorded.active)
      (floor : after.recorded.committedVersionFloor = before.recorded.committedVersionFloor)
      (inventory : ∀ name generation, before.recorded.generations.get? name = some generation →
        after.recorded.generations.get? name = some generation)
  | began (journal : Journal) (idle : before.journal = none) (pending : after.journal = some journal)
      (recorded : after.recorded = before.recorded) (started : before.recorded = journal.before)
      (above : ∀ target, journal.target = some target → AboveFloor journal.before target)
  | linked (journal : after.journal = before.journal) (recorded : after.recorded = before.recorded)
  | committed (journal : Journal) (pending : before.journal = some journal)
      (kept : after.journal = some journal) (recorded : before.recorded = journal.before)
      (committed : journal.before.committed journal.target = .ok after.recorded)
  | ended (quiet : after.journal = none) (recorded : after.recorded = before.recorded)

/-- What one action of a call may do. -/
inductive Change [DecidableEq κ] (id : κ) (before after : Prefix κ) : Prop where
  | same (result : after = before)
  | locked (free : before.lock = none) (result : after = { before with lock := some id })
  | released (result : after = Installer.release id before)
  | changed (held : before.lock = some id) (kept : after.lock = some id)
      (recoverable : Recoverable after) (moves : Moves before after)

/-- The lock is not part of what is recovered. -/
theorem Recoverable.lock {root : Prefix κ} (recoverable : Recoverable root) (holder : Option κ) :
    Recoverable { root with lock := holder } := by
  cases recoverable with
  | settled state settled =>
    exact .settled state ⟨settled.quiet, settled.recorded, settled.valid, settled.links⟩
  | underway journal sound underway =>
    exact .underway journal sound
      ⟨underway.pending, underway.recorded, underway.current, underway.idk⟩
  | committed journal after sound committed =>
    exact .committed journal after sound
      ⟨committed.pending, committed.committed, committed.recorded, committed.links⟩

variable [DecidableEq κ]

theorem release_recoverable (id : κ) {root : Prefix κ} (recoverable : Recoverable root) :
    Recoverable (Installer.release id root) := by
  unfold Installer.release
  split
  · exact recoverable.lock none
  · exact recoverable

/-- What is still locked after a release was locked by someone else. -/
theorem release_locked {id holder : κ} {root : Prefix κ}
    (held : (Installer.release id root).lock = some holder) :
    root.lock = some holder ∧ holder ≠ id := by
  unfold Installer.release at held
  split at held
  · simp at held
  · exact ⟨held, fun same => absurd (same ▸ held) ‹_›⟩

theorem change_recoverable {id : κ} {before after : Prefix κ} (recoverable : Recoverable before)
    (change : Change id before after) : Recoverable after := by
  cases change with
  | same result => exact result ▸ recoverable
  | locked free result => exact result ▸ recoverable.lock (some id)
  | released result => exact result ▸ release_recoverable id recoverable
  | changed held kept recovered moves => exact recovered

/-! ## What the others cannot change -/

abbrev Others (id : κ) : Prefix κ → Prefix κ → Prop :=
  fun before after => Recoverable before ∧ installer.others (fun id _ => Change id) id before after

/-- `id` holds the lock. -/
def Held (id : κ) (fact : Prefix κ → Prop) (root : Prefix κ) : Prop :=
  root.lock = some id ∧ fact root

/-- Nobody else changes a locked installation. -/
theorem held_same {id : κ} {before after : Prefix κ} (held : before.lock = some id)
    (others : Others id before after) : after = before := by
  obtain ⟨_, other, different, acted⟩ := others
  have apart : before.lock ≠ some other := by simpa [held] using different.symm
  have released : Installer.release other before = before := if_neg apart
  cases acted with
  | inr died => exact died.trans released
  | inl changed =>
    obtain ⟨_, change⟩ := changed
    cases change with
    | same result => exact result
    | locked free result => simp [held] at free
    | released result => exact result.trans released
    | changed taken kept recoverable moves => exact absurd taken apart

theorem held_stable (id : κ) (fact : Prefix κ → Prop) : Stable (Others id) (Held id fact) := by
  intro before after holds others
  rw [held_same holds.1 others]
  exact holds

/-! ## The programs -/

abbrev Allowed (id : κ) : Prefix κ → Prefix κ → Prop :=
  fun before after => Recoverable before → Change id before after

/-- Under the lock the program of a call leads from `pre` to `post`. -/
abbrev Does {α : Type} (id : κ) (pre : Prefix κ → Prop) (program : Installer.Step κ α)
    (post : α → Prefix κ → Prop) : Prop :=
  Triple (Allowed id) (Others id) (Held id pre) program (fun value => Held id (post value))
    fun _ _ => True

theorem lost_stable (id : κ) (error : String) :
    Stable (Others id) ((fun _ _ => True : String → Prefix κ → Prop) error) :=
  fun _ _ _ _ => trivial

section Steps

variable {id : κ} {pre : Prefix κ → Prop}

theorem access_does {α : Type} {run : Prefix κ → Prefix κ × Result α} {post : α → Prefix κ → Prop}
    (each : ∀ root, pre root → (run root).1.lock = root.lock ∧
      ((run root).1 = root ∨ Recoverable (run root).1 ∧ Moves root (run root).1) ∧
      ∀ value, (run root).2 = .ok value → post value (run root).1) :
    Does id pre (Installer.access run) post := by
  refine Triple.action (held_stable id pre) (fun value => held_stable id (post value))
    (lost_stable id) ?_
  intro root answer last result holds ran
  obtain ⟨held, fact⟩ := holds
  cases io : answer.io with
  | error error =>
    obtain ⟨rfl, rfl⟩ : root = last ∧ .error error = result := by simpa [io] using ran
    exact ⟨fun _ => .same rfl, trivial⟩
  | ok value =>
    obtain ⟨rfl, rfl⟩ : (run root).1 = last ∧ (run root).2 = result := by
      simpa [io, Prod.ext_iff] using ran
    obtain ⟨kept, allowed, reached⟩ := each root fact
    constructor
    · intro _
      cases allowed with
      | inl same => exact .same same
      | inr taken => exact .changed held (kept.trans held) taken.1 taken.2
    · cases outcome : (run root).2 with
      | ok value => exact ⟨kept.trans held, reached value outcome⟩
      | error error => trivial

/-- A read. -/
theorem read_does {α : Type} {result : Prefix κ → Result α} :
    Does id pre (Installer.access fun root => (root, result root))
      fun value root => result root = .ok value ∧ pre root :=
  access_does fun _ holds => ⟨rfl, .inl rfl, fun _ same => ⟨same, holds⟩⟩

theorem unseen_does : Does id pre Installer.unseen fun _ => pre :=
  access_does fun _ holds => ⟨rfl, .inl rfl, fun _ _ => holds⟩

theorem change_does {change : Prefix κ → Prefix κ} {post : Prefix κ → Prop}
    (lock : ∀ root, (change root).lock = root.lock)
    (recoverable : ∀ root, post root → Recoverable root)
    (each : ∀ root, pre root → post (change root) ∧ Moves root (change root)) :
    Does id pre (Installer.change change) fun _ => post :=
  access_does fun root holds =>
    ⟨lock root, .inr ⟨recoverable _ (each root holds).1, (each root holds).2⟩,
      fun _ _ => (each root holds).1⟩

/-- A fallible function of values. -/
theorem lift_does {α : Type} {result : Result α} :
    Does id pre (liftM result) fun value root => result = .ok value ∧ pre root :=
  Triple.lift (lost_stable id) (fun _ same _ holds => ⟨holds.1, same, holds.2⟩)
    (fun _ _ => held_stable id _) fun _ _ _ => trivial

/-- A check whose outcome is not needed later. -/
theorem check_does {α : Type} {result : Result α} : Does id pre (liftM result) fun _ => pre :=
  Triple.lift (lost_stable id) (fun _ _ _ holds => holds) (fun _ _ => held_stable id _)
    fun _ _ _ => trivial

theorem verifyGeneration_does {generation : Generation} :
    Does id pre (Installer.verifyGeneration generation) fun _ => pre :=
  check_does.bind fun _ => unseen_does

theorem value_does {α : Type} {value : α} {post : α → Prefix κ → Prop}
    (implies : ∀ root, pre root → post value root) :
    Does id pre (pure value) post :=
  Triple.value (held_stable id _) fun root holds => ⟨holds.1, implies root holds.2⟩

theorem Does.weaken {α : Type} {program : Installer.Step κ α} {strong : Prefix κ → Prop}
    {post weak : α → Prefix κ → Prop} (does : Does id pre program post)
    (before : ∀ root, strong root → pre root)
    (after : ∀ value root, post value root → weak value root) : Does id strong program weak :=
  Triple.consequence does (fun root holds => ⟨holds.1, before root holds.2⟩)
    (fun value root holds => ⟨holds.1, after value root holds.2⟩) fun _ _ _ => trivial

theorem atomicWrite_does {rename : Prefix κ → Prefix κ} {post : Prefix κ → Prop}
    (lock : ∀ root, (rename root).lock = root.lock)
    (recoverable : ∀ root, post root → Recoverable root)
    (each : ∀ root, pre root → post (rename root) ∧ Moves root (rename root)) :
    Does id pre (Installer.atomicWrite rename) fun _ => post :=
  unseen_does.bind fun _ => (change_does lock recoverable each).bind fun _ => unseen_does

/-- A valid state is written when what it makes of the directory is recoverable. -/
theorem writeState_does {state : InstallationState} {post : Prefix κ → Prop}
    (recoverable : ∀ root, post root → Recoverable root)
    (each : Valid state → ∀ root, pre root → post { root with state := some state } ∧
      Moves root { root with state := some state }) :
    Does id pre (Installer.writeState state) fun _ => post := by
  refine lift_does.bind fun _ => ?_
  refine atomicWrite_does (fun _ => rfl) recoverable fun root holds => ?_
  exact each (validate_iff.mp holds.1) root holds.2

theorem removeJournal_does {state : InstallationState} (valid : Valid state)
    (each : ∀ root, pre root → root.recorded = state ∧ root.Linked state) :
    Does id pre Installer.removeJournal fun _ => Settled state := by
  have removed : Does id pre (Installer.change fun root => { root with journal := none })
      fun _ => Settled state := by
    refine change_does (fun _ => rfl) (fun root settled => .settled state settled) fun root holds => ?_
    obtain ⟨recorded, links⟩ := each root holds
    exact ⟨⟨rfl, recorded, valid, links⟩, .ended rfl rfl⟩
  exact removed.bind fun _ => unseen_does

/-! ### The links of a transaction -/

section Links

variable {journal : Journal} (sound : Sound journal)
include sound

omit [DecidableEq κ] in
theorem underway_recoverable {fact : Prefix κ → Prop} (root : Prefix κ)
    (holds : Underway journal root ∧ fact root) : Recoverable root :=
  .underway journal sound holds.1

theorem setActive_does (launcher : Option PathBuf → Prop) {name : Option String}
    (legal : name.map generationLink = journal.before.active.map generationLink ∨
      name.map generationLink = journal.target.map fun target => generationLink target.name) :
    Does id (fun root => Underway journal root ∧ launcher root.idk) (Installer.setActive name)
      fun _ root => Underway journal root ∧ root.current = name.map generationLink ∧
        launcher root.idk := by
  have moved : ∀ root : Prefix κ, Underway journal root → launcher root.idk →
      Underway journal { root with current := name.map generationLink } ∧
        name.map generationLink = name.map generationLink ∧ launcher root.idk :=
    fun root underway kept =>
      ⟨⟨underway.pending, underway.recorded, legal, underway.idk⟩, rfl, kept⟩
  cases name with
  | some target =>
    refine unseen_does.bind fun _ => ?_
    refine Triple.bind ?_ fun _ => unseen_does
    exact change_does (fun _ => rfl) (underway_recoverable sound) fun root holds =>
      ⟨moved root holds.1 holds.2, .linked rfl rfl⟩
  | none =>
    refine Triple.bind ?_ fun _ => unseen_does
    refine read_does.bind fun found => ?_
    cases found with
    | none =>
      exact value_does fun root holds => ⟨holds.2.1, Except.ok.inj holds.1, holds.2.2⟩
    | some actual =>
      refine Triple.bind ?_ fun _ => unseen_does
      exact change_does (fun _ => rfl) (underway_recoverable sound) fun root holds =>
        ⟨moved root holds.2.1 holds.2.2, .linked rfl rfl⟩

theorem ensureLauncher_does (current : Option PathBuf → Prop)
    (wanted : journal.before.active.isSome ∨ journal.target.isSome) :
    Does id (fun root => Underway journal root ∧ current root.current) Installer.ensureLauncher
      fun _ root => Underway journal root ∧ root.idk = some launcherLink ∧
        current root.current := by
  refine read_does.bind fun found => ?_
  cases found with
  | some existing =>
    refine lift_does.bind fun _ => ?_
    refine Does.weaken unseen_does (fun root holds => ?_) fun _ _ holds => holds
    obtain ⟨managed, found, underway, kept⟩ := holds
    obtain rfl : existing = launcherLink := by simpa using managed
    exact ⟨underway, Except.ok.inj found, kept⟩
  | none =>
    refine Triple.bind ?_ fun _ => unseen_does
    refine change_does (fun _ => rfl) (underway_recoverable sound) fun root holds => ?_
    obtain ⟨_, underway, kept⟩ := holds
    refine ⟨⟨?_, rfl, kept⟩, .linked rfl rfl⟩
    exact ⟨underway.pending, underway.recorded, underway.current, .inr ⟨rfl, wanted⟩⟩

theorem removeLauncher_does :
    Does id (Underway journal) Installer.removeLauncher
      fun _ root => Underway journal root ∧ root.idk = none := by
  refine read_does.bind fun found => ?_
  cases found with
  | none => exact value_does fun root holds => ⟨holds.2, Except.ok.inj holds.1⟩
  | some actual =>
    refine check_does.bind fun _ => ?_
    refine Triple.bind ?_ fun _ => unseen_does
    refine change_does (fun _ => rfl) (underway_recoverable sound) fun root holds => ?_
    obtain ⟨_, underway⟩ := holds
    refine ⟨⟨?_, rfl⟩, .linked rfl rfl⟩
    exact ⟨underway.pending, underway.recorded, underway.current, .inl rfl⟩

theorem restore_does :
    Does id (Underway journal) (Installer.restore journal)
      fun _ => Settled journal.before := by
  -- With the old links in place the old state is written and the journal removed.
  have finish : Does id (fun root => Underway journal root ∧ root.Linked journal.before)
      (do
        Installer.writeState journal.before
        Installer.removeJournal)
      fun _ => Settled journal.before := by
    refine Triple.bind (writeState_does (underway_recoverable sound) fun _ root holds => ?_)
      fun _ => removeJournal_does sound.valid fun root holds => ⟨holds.1.recorded, holds.2⟩
    refine ⟨⟨⟨holds.1.pending, rfl, holds.1.current, holds.1.idk⟩, holds.2⟩, ?_⟩
    exact .linked rfl holds.1.recorded.symm
  refine Triple.bind (read_does.weaken (fun _ holds => holds) fun _ _ holds => holds.2)
    fun found => ?_
  refine check_does.bind fun _ => ?_
  cases active : journal.before.active with
  | some previous =>
    refine check_does.bind fun generation => ?_
    refine verifyGeneration_does.bind fun _ => ?_
    have activate : Does id (Underway journal) (Installer.setActive (some previous))
        fun _ root => Underway journal root ∧ root.current = some (generationLink previous) :=
      (setActive_does sound (fun _ => True) (.inl (by rw [active]))).weaken
        (fun _ holds => ⟨holds, trivial⟩) fun _ _ holds => ⟨holds.1, holds.2.1⟩
    have launch : Does id
        (fun root => Underway journal root ∧ root.current = some (generationLink previous))
        Installer.ensureLauncher fun _ root => Underway journal root ∧ root.Linked journal.before :=
      (ensureLauncher_does sound (· = some (generationLink previous)) (.inl (by simp [active]))).weaken
        (fun _ holds => holds) fun _ root holds =>
          ⟨holds.1, by simp [holds.2.2, active], by simp [holds.2.1, active]⟩
    exact activate.bind fun _ => launch.bind fun _ => finish
  | none =>
    have deactivate : Does id (fun root => Underway journal root ∧ root.idk = none)
        (Installer.setActive none) fun _ root => Underway journal root ∧ root.Linked journal.before :=
      (setActive_does sound (· = none) (.inl (by rw [active]))).weaken
        (fun _ holds => holds) fun _ root holds =>
          ⟨holds.1, by simp [holds.2.1, active], by simp [holds.2.2, active]⟩
    exact (removeLauncher_does sound).bind fun _ => deactivate.bind fun _ => finish

/-- The journal of a transaction that is about to begin. -/
theorem writeJournal_does
    (above : ∀ target, journal.target = some target → AboveFloor journal.before target) :
    Does id (Settled journal.before) (Installer.writeJournal journal) fun _ => Underway journal := by
  refine atomicWrite_does (fun _ => rfl) (fun root => .underway journal sound) fun root settled => ?_
  refine ⟨⟨rfl, settled.recorded, .inl settled.links.1, ?_⟩,
    .began journal settled.quiet rfl rfl settled.recorded above⟩
  have launcher := settled.links.2
  cases active : journal.before.active with
  | none => exact .inl (by simpa [active] using launcher)
  | some name => exact .inr ⟨by simpa [active] using launcher, .inl rfl⟩

/-- With the new links in place the committed state is written and the journal removed. -/
theorem commit_does {after : InstallationState} (valid : Valid after)
    (committed : journal.before.committed journal.target = .ok after) :
    Does id (fun root => Underway journal root ∧ root.Linked after)
      (do
        Installer.writeState after
        Installer.removeJournal
        pure after)
      fun _ => Settled after := by
  have write : Does id (fun root => Underway journal root ∧ root.Linked after)
      (Installer.writeState after) fun _ => Committed journal after :=
    writeState_does (fun root => .committed journal after sound) fun _ root holds =>
      ⟨⟨holds.1.pending, committed, rfl, holds.2⟩,
        .committed journal holds.1.pending holds.1.pending holds.1.recorded committed⟩
  refine write.bind fun _ => ?_
  refine Triple.bind (removeJournal_does valid fun root holds => ⟨holds.recorded, holds.links⟩)
    fun _ => ?_
  exact value_does fun _ settled => settled

end Links

/-! ### The operations -/

/-- An action that reads and leaves the directory as it is. -/
theorem observe_does {α : Type} {read : InstallAnswer → Result α} :
    Does id pre (.action fun root answer => some (root, read answer)) fun _ => pre := by
  refine Triple.action (held_stable id pre) (fun _ => held_stable id pre) (lost_stable id) ?_
  intro root answer last result holds ran
  obtain ⟨rfl, rfl⟩ : root = last ∧ read answer = result := by simpa using ran
  refine ⟨fun _ => .same rfl, ?_⟩
  cases read answer with
  | ok value => exact holds
  | error error => trivial

/-- A check whose failure is not the end of the call. -/
theorem attempt_does :
    Does id pre (Installer.unseen : Installer.Step κ Unit).attempt fun _ => pre := by
  have kept : Triple (Allowed id) (Others id) (Held id pre) (Installer.unseen : Installer.Step κ Unit)
      (fun _ => Held id pre) fun _ => Held id pre := by
    refine Triple.action (held_stable id pre) (fun _ => held_stable id pre)
      (fun _ => held_stable id pre) ?_
    intro root answer last result holds ran
    cases io : answer.io with
    | error error =>
      obtain ⟨rfl, rfl⟩ : root = last ∧ .error error = result := by simpa [io] using ran
      exact ⟨fun _ => .same rfl, holds⟩
    | ok value =>
      obtain ⟨rfl, rfl⟩ : root = last ∧ .ok () = result := by simpa [io] using ran
      exact ⟨fun _ => .same rfl, holds⟩
  have attempted : Triple (Allowed id) (Others id) (Held id pre)
      (Installer.unseen : Installer.Step κ Unit).attempt
      (fun outcome => Ends (fun _ => Held id pre) (fun _ => Held id pre) outcome)
      fun (_ : String) _ => True := kept.attempt
  refine attempted.consequence (fun _ holds => holds) (fun outcome root ends => ?_)
    fun _ _ lost => lost
  cases outcome with
  | ok value => exact ends
  | error error => exact ends

theorem checkLinks_does {state : InstallationState} :
    Does id pre (Installer.checkLinks state) fun _ => pre := by
  have read : ∀ result : Prefix κ → Result (Option PathBuf),
      Does id pre (Installer.access fun root => (root, result root)) fun _ => pre :=
    fun result => read_does.weaken (fun _ holds => holds) fun _ _ holds => holds.2
  exact (read _).bind fun _ => check_does.bind fun _ => (read _).bind fun _ => check_does

theorem requireNoJournal_does {message : String} :
    Does id Recoverable (Installer.requireNoJournal message)
      fun _ root => ∃ state, Settled state root := by
  refine read_does.weaken (fun _ holds => holds) fun _ root holds => ?_
  obtain ⟨missing, recoverable⟩ := holds
  exact ⟨_, recoverable.idle (by simpa using missing)⟩

theorem readState_does :
    Does id pre Installer.readState fun state root => root.recorded = state ∧ pre root := by
  refine read_does.weaken (fun _ holds => holds) fun state root holds => ⟨?_, holds.2⟩
  obtain ⟨_, _, same⟩ := bind_eq_ok.mp holds.1
  exact Except.ok.inj same

omit [DecidableEq κ] in
theorem settled_read {state : InstallationState} {root : Prefix κ}
    (holds : root.recorded = state ∧ ∃ state, Settled state root) : Settled state root := by
  obtain ⟨same, known, settled⟩ := holds
  obtain rfl : known = state := settled.recorded.symm.trans same
  exact settled

theorem stage_does {before : InstallationState} {target : Generation} :
    Does id (Settled before) (Installer.stage before target) fun staged root =>
      Settled staged root ∧ staged.generations.get? target.name = some target ∧
        staged.committedVersionFloor = before.committedVersionFloor := by
  unfold Installer.stage
  cases known : before.generations.get? target.name with
  | some generation =>
    refine lift_does.bind fun _ => ?_
    refine unseen_does.bind fun _ => ?_
    refine verifyGeneration_does.bind fun _ => ?_
    refine value_does fun root holds => ⟨holds.2, ?_⟩
    have same : generation = target := by simpa using holds.1
    exact ⟨by rw [known, same], rfl⟩
  | none =>
    refine check_does.bind fun _ => ?_
    have finish : Does id (Settled before)
        (do
          Installer.verifyGeneration target
          let before :=
            { before with generations := before.generations.insert target.name target }
          Installer.writeState before
          pure before)
        fun staged root => Settled staged root ∧
          staged.generations.get? target.name = some target ∧
            staged.committedVersionFloor = before.committedVersionFloor := by
      refine verifyGeneration_does.bind fun _ => ?_
      refine Triple.bind (writeState_does (fun root => .settled _) fun valid root settled => ?_)
        fun _ => value_does fun root settled => ⟨settled, ?_, rfl⟩
      · refine ⟨⟨settled.quiet, rfl, valid, settled.links⟩,
          .staged settled.quiet settled.quiet ?_ ?_ fun name generation member => ?_⟩
        · show before.active = root.recorded.active
          rw [settled.recorded]
        · show before.committedVersionFloor = root.recorded.committedVersionFloor
          rw [settled.recorded]
        · show (before.generations.insert target.name target).get? name = some generation
          rw [settled.recorded] at member
          have other : name ≠ target.name := fun same => by simp [same, known] at member
          rw [get_insert _ _ _ _ known, if_neg other, member]
      · rw [get_insert _ _ _ _ known, if_pos rfl]
    refine observe_does.bind fun directory => ?_
    refine Triple.branch (fun _ => ?_) fun _ => finish
    refine unseen_does.bind fun _ => ?_
    refine unseen_does.bind fun _ => ?_
    refine unseen_does.bind fun _ => ?_
    refine unseen_does.bind fun _ => ?_
    exact unseen_does.bind fun _ => finish

omit [DecidableEq κ] in
theorem checkVersions_above {before : InstallationState} {target : Generation} {done : Unit}
    (checked : Installer.checkVersions before target = .ok done) : AboveFloor before target := by
  intro floor same
  obtain ⟨version, parsed, checked⟩ := bind_eq_ok.mp checked
  obtain ⟨own, _, checked⟩ := bind_eq_ok.mp checked
  obtain ⟨_, _, checked⟩ := bind_eq_ok.mp checked
  obtain ⟨_, floored, _⟩ := bind_eq_ok.mp checked
  obtain ⟨limit, bound, below⟩ := bind_eq_ok.mp (option_forM_ok.mp floored floor same)
  exact ⟨version, limit, parsed, bound, by simpa using below⟩

theorem installLocked_does {target : Generation} :
    Does id Recoverable (Installer.installLocked target) fun _ _ => True := by
  refine requireNoJournal_does.bind fun _ => ?_
  refine Triple.bind (readState_does.weaken (fun _ holds => holds) fun _ _ => settled_read)
    fun before => ?_
  refine checkLinks_does.bind fun _ => ?_
  refine check_does.bind fun _ => ?_
  refine lift_does.bind fun _ root holds => ?_
  obtain ⟨held, checked, settled⟩ := holds
  have above := checkVersions_above checked
  refine Triple.bind stage_does (fun staged => ?_) root ⟨held, settled⟩
  refine unseen_does.bind fun _ => ?_
  refine Triple.branch (fun _ => value_does fun _ _ => trivial) fun inactive => ?_
  intro root holds
  obtain ⟨held, settled, known, floor⟩ := holds
  let journal : Journal := ⟨1, staged, some target⟩
  have sound : Sound journal :=
    ⟨rfl, settled.valid, fun generation same => (Option.some.inj same) ▸ known,
      fun generation same => (Option.some.inj same) ▸ inactive⟩
  have activate : Does id (Underway journal) (Installer.setActive (some target.name))
      fun _ root => Underway journal root ∧ root.current = some (generationLink target.name) :=
    (setActive_does sound (fun _ => True) (.inr rfl)).weaken
      (fun _ holds => ⟨holds, trivial⟩) fun _ _ holds => ⟨holds.1, holds.2.1⟩
  have launch : Does id
      (fun root => Underway journal root ∧ root.current = some (generationLink target.name))
      Installer.ensureLauncher fun _ root => Underway journal root ∧
        root.idk = some launcherLink ∧ root.current = some (generationLink target.name) :=
    ensureLauncher_does sound (· = some (generationLink target.name)) (.inr rfl)
  have newer : ∀ generation, journal.target = some generation →
      AboveFloor journal.before generation := by
    intro generation same limit known
    obtain rfl := Option.some.inj same
    exact above limit (floor.symm.trans known)
  refine Triple.bind (writeJournal_does sound newer) (fun _ => ?_) root ⟨held, settled⟩
  refine activate.bind fun _ => launch.bind fun _ => ?_
  refine attempt_does.bind fun healthy => ?_
  cases healthy with
  | error error =>
    refine Triple.bind (Does.weaken (restore_does sound) (fun _ holds => holds.1)
      fun _ _ holds => holds) fun _ => ?_
    exact Triple.done (lost_stable id error) fun _ _ => trivial
  | ok healthy =>
    refine lift_does.bind fun after root holds => ?_
    obtain ⟨held, committed, underway, launcher, current⟩ := holds
    obtain ⟨known, done, valid, active⟩ := sound.committed_ok
    obtain rfl : known = after := Except.ok.inj (done.symm.trans committed)
    have links : root.Linked known := ⟨by simp [current, active, journal], by simp [launcher, active, journal]⟩
    exact (commit_does sound valid done).weaken (fun _ holds => holds) (fun _ _ _ => trivial) root
      ⟨held, underway, links⟩

theorem recoverLocked_does : Does id Recoverable Installer.recoverLocked fun _ _ => True := by
  have readJournal : Does id Recoverable Installer.readJournal
      fun journal root => root.journal = journal ∧ Recoverable root := by
    refine read_does.weaken (fun _ holds => holds) fun journal root holds => ⟨?_, holds.2⟩
    obtain ⟨_, _, same⟩ := bind_eq_ok.mp holds.1
    exact Except.ok.inj same
  refine readJournal.bind fun found => ?_
  cases found with
  | none =>
    refine readState_does.bind fun state => ?_
    exact checkLinks_does.bind fun _ => value_does fun _ _ => trivial
  | some journal =>
    refine readState_does.bind fun observed => ?_
    refine lift_does.bind fun committed => ?_
    refine Triple.branch (fun same => ?_) fun different => ?_
    · have finish : Does id
          (fun root => journal.before.committed journal.target = .ok committed ∧
            root.recorded = observed ∧ root.journal = some journal ∧ Recoverable root)
          (do
            Installer.checkLinks observed
            Installer.removeJournal
            pure observed)
          fun _ _ => True := by
        refine checkLinks_does.bind fun _ root holds => ?_
        obtain ⟨held, done, recorded, pending, recoverable⟩ := holds
        obtain ⟨valid, links⟩ := recoverable.committed_links pending (by rw [done, ← same, recorded])
        rw [recorded] at valid links
        have remove : Does id (fun root => root.recorded = observed ∧ root.Linked observed)
            Installer.removeJournal fun _ => Settled observed :=
          removeJournal_does valid fun _ holds => holds
        refine Triple.bind remove (fun _ => ?_) root ⟨held, recorded, links⟩
        exact value_does fun _ _ => trivial
      cases target : journal.target with
      | none => simpa only [target] using finish
      | some generation =>
        refine verifyGeneration_does.bind fun _ => ?_
        simpa only [target] using finish
    · refine check_does.bind fun _ root holds => ?_
      obtain ⟨held, done, recorded, pending, recoverable⟩ := holds
      have other : journal.before.committed journal.target ≠ .ok root.recorded := by
        rw [done, recorded]
        exact fun equal => different (Except.ok.inj equal).symm
      obtain ⟨sound, underway⟩ := recoverable.not_committed pending other
      refine Triple.bind (restore_does sound) (fun _ => ?_) root ⟨held, underway⟩
      exact value_does fun _ _ => trivial

theorem uninstallLocked_does :
    Does id Recoverable Installer.uninstallLocked fun _ _ => True := by
  refine requireNoJournal_does.bind fun _ => ?_
  refine Triple.bind (readState_does.weaken (fun _ holds => holds) fun _ _ => settled_read)
    fun state => ?_
  refine checkLinks_does.bind fun _ root holds => ?_
  have sound : Sound ⟨1, state, none⟩ := ⟨rfl, holds.2.valid, by simp, by simp⟩
  have deactivate : Does id (fun root => Underway ⟨1, state, none⟩ root ∧ root.idk = none)
      (Installer.setActive none) fun _ root => Underway ⟨1, state, none⟩ root ∧
        root.current = none ∧ root.idk = none :=
    setActive_does sound (· = none) (.inr rfl)
  refine Triple.bind (writeJournal_does sound nofun) (fun _ => ?_) root holds
  refine (removeLauncher_does sound).bind fun _ => deactivate.bind fun _ => ?_
  refine lift_does.bind fun after root holds => ?_
  obtain ⟨held, committed, underway, current, launcher⟩ := holds
  obtain ⟨known, done, valid, active⟩ := sound.committed_ok
  obtain rfl : known = after := Except.ok.inj (done.symm.trans committed)
  have links : root.Linked known := ⟨by simp [current, active], by simp [launcher, active]⟩
  exact (commit_does sound valid done).weaken (fun _ holds => holds) (fun _ _ _ => trivial) root
    ⟨held, underway, links⟩

/-- What `id` has not locked, nobody locks for it. -/
theorem unlocked_stable (id : κ) :
    Stable (Others id) fun root : Prefix κ => root.lock ≠ some id := by
  have released : ∀ (other : κ) (root : Prefix κ), root.lock ≠ some id →
      (Installer.release other root).lock ≠ some id :=
    fun other root unlocked held => unlocked (release_locked held).1
  intro before after unlocked others
  obtain ⟨_, other, different, acted⟩ := others
  cases acted with
  | inr died => exact died ▸ released other before unlocked
  | inl changed =>
    obtain ⟨_, change⟩ := changed
    cases change with
    | same result => exact result ▸ unlocked
    | locked free result => simpa [result] using different
    | released result => exact result ▸ released other before unlocked
    | changed held kept recoverable moves => simpa [kept] using different

/-- An operation under the lock, from whatever the others have left. -/
theorem locked_does {operation : Installer.Step κ InstallationState}
    (does : Does id Recoverable operation fun _ _ => True) :
    Triple (Allowed id) (Others id) (fun root => Recoverable root ∧ root.lock ≠ some id)
      (Installer.locked id operation) (fun _ root => root.lock ≠ some id)
      fun _ root => root.lock ≠ some id := by
  have recoverable : Stable (Others id) (Recoverable (κ := κ)) := by
    intro before after holds others
    obtain ⟨_, other, _, acted⟩ := others
    cases acted with
    | inr died => exact died ▸ release_recoverable other holds
    | inl changed =>
      obtain ⟨_, change⟩ := changed
      exact change_recoverable holds change
  have lock : Triple (Allowed id) (Others id)
      (fun root => Recoverable root ∧ root.lock ≠ some id) (Installer.lock id)
      (fun _ => Held id Recoverable) fun _ root => root.lock ≠ some id := by
    refine Triple.action (recoverable.and (unlocked_stable id)) (fun _ => held_stable id _)
      (fun _ => unlocked_stable id) ?_
    intro root answer last result holds ran
    cases io : answer.io with
    | error error =>
      obtain ⟨rfl, rfl⟩ : root = last ∧ .error error = result := by simpa [io] using ran
      exact ⟨fun _ => .same rfl, holds.2⟩
    | ok value =>
      cases free : root.lock with
      | none =>
        obtain ⟨rfl, rfl⟩ : { root with lock := some id } = last ∧ .ok () = result := by
          simpa [io, free] using ran
        exact ⟨fun _ => .locked free rfl, rfl, holds.1.lock (some id)⟩
      | some other =>
        obtain ⟨rfl, rfl⟩ : root = last ∧ _ = result := by simpa [io, free] using ran
        exact ⟨fun _ => .same rfl, holds.2⟩
  have nothing : Stable (Others id) fun _ => True := Stable.const True
  have unlock : Triple (Allowed id) (Others id) (fun _ => True) (Installer.unlock id)
      (fun _ root => root.lock ≠ some id) fun (_ : String) root => root.lock ≠ some id := by
    refine Triple.action nothing (fun _ => unlocked_stable id) (fun _ => unlocked_stable id) ?_
    intro root answer last result _ ran
    obtain ⟨rfl, rfl⟩ : Installer.release id root = last ∧ .ok () = result := by simpa using ran
    exact ⟨fun _ => .released rfl, fun held => (release_locked held).2 rfl⟩
  refine lock.bind fun _ => does.attempt.bind fun outcome => ?_
  refine (unlock.bind fun _ => ?_).consequence (fun _ _ => trivial) (fun _ _ done => done)
    fun _ _ done => done
  cases outcome with
  | ok state => exact Triple.done (unlocked_stable id) fun _ done => done
  | error error => exact Triple.done (unlocked_stable id) fun _ done => done

end Steps

/-- The proof outline of every call. -/
def installerOutline : (installer (κ := κ)).Outline where
  guarantee id _ := Change id
  inv := Recoverable
  fresh id root := root.lock ≠ some id
  post id _ _ root := root.lock ≠ some id
  inv_kept _ _ _ _ recoverable change := change_recoverable recoverable change
  inv_buried id _ recoverable := release_recoverable id recoverable
  fresh_kept := unlocked_stable
  safe id call root recoverable unlocked := by
    have either : ∀ (result : Except String InstallationState) (root : Prefix κ),
        Ends (fun _ root => root.lock ≠ some id) (fun _ root => root.lock ≠ some id) result root →
          root.lock ≠ some id := by
      intro result root ends
      cases result with
      | ok state => exact ends
      | error error => exact ends
    cases call with
    | install target =>
      exact (locked_does installLocked_does root ⟨recoverable, unlocked⟩).weaken either
    | recover =>
      exact (locked_does recoverLocked_does root ⟨recoverable, unlocked⟩).weaken either
    | uninstallEntrypoints =>
      exact (locked_does uninstallLocked_does root ⟨recoverable, unlocked⟩).weaken either

/-! ## Every run -/

/-- An installation that no call has touched yet. -/
structure Consistent (root : Prefix κ) : Prop where
  free : root.lock = none
  settled : Settled root.recorded root

variable {start pool : Pool κ Call InstallAnswer (Prefix κ) String InstallationState}
  {trace : List (ThreadEvent κ Call String InstallationState)}

/-- The lock is held by a call that is still running. -/
def LockAlive (pool : Pool κ Call InstallAnswer (Prefix κ) String InstallationState) : Prop :=
  ∀ holder, pool.shared.lock = some holder → pool.threads holder ≠ none

theorem step_lockAlive {before after : Pool κ Call InstallAnswer (Prefix κ) String InstallationState}
    {event : ThreadEvent κ Call String InstallationState} (holds : installerOutline.Holds before)
    (alive : LockAlive before) (step : Interleaving.Step installer before event after) :
    LockAlive after := by
  have took := (installerOutline.holds_step holds step).2
  intro holder held
  cases step with
  | @start id call unused =>
    by_cases same : holder = id
    · simp [same]
    · simpa [Function.update_of_ne same] using alive holder held
  | @turn id _ action next answer last value running run =>
    by_cases same : holder = id
    · simp [same]
    · cases took with
      | turn known allowed calls =>
        have change : Change id before.shared last := allowed
        have held : last.lock = some holder := held
        have kept : before.shared.lock = some holder := by
          cases change with
          | same result => exact result ▸ held
          | locked free result => simp [result, Ne.symm same] at held
          | released result => exact (release_locked (result ▸ held)).1
          | changed own kept recoverable moves => simp [kept, Ne.symm same] at held
        simpa [Function.update_of_ne same] using alive holder kept
  | @finish id result running =>
    cases took with
    | finish known unchanged unlocked calls =>
      by_cases same : holder = id
      · exact absurd (same ▸ held) unlocked
      · simpa [Function.update_of_ne same] using alive holder held
  | @die id running =>
    obtain ⟨kept, different⟩ := release_locked held
    simpa [Function.update_of_ne different] using alive holder kept

/-- What holds after every run. -/
theorem run_holds (initial : (installer.system Consistent).init start)
    (run : (installer.system Consistent).Run start trace pool) :
    installerOutline.Holds pool ∧ LockAlive pool := by
  induction run with
  | refl =>
    have consistent := initial.1
    have starts : ∀ root : Prefix κ, Consistent root →
        Recoverable root ∧ ∀ id, root.lock ≠ some id :=
      fun root clean => ⟨.settled _ clean.settled, fun id => by simp [clean.free]⟩
    exact ⟨(installerOutline.sound starts).initial initial, fun holder held => by
      simp [consistent.free] at held⟩
  | tail _ taken inductionHypothesis =>
    obtain ⟨holds, alive⟩ := inductionHypothesis
    exact ⟨(installerOutline.holds_step holds taken).1, step_lockAlive holds alive taken⟩

/-- A recovery by `id`, from `root` to `last`. -/
structure Recovers (id : κ) (root : Prefix κ) (state : InstallationState) (last : Prefix κ) :
    Prop where
  completes : Runs (installer.code id .recover) root state last
  /-- The state before the transaction or the committed one. -/
  legal : Legal root state
  recorded : last.recorded = state
  links : last.Linked state
  journal : last.journal = none
  lock : last.lock = none

theorem recovers (id : κ) {root : Prefix κ} (recoverable : Recoverable root)
    (free : root.lock = none) : ∃ state last, Recovers id root state last := by
  obtain ⟨state, last, ran, lock, settled, legal⟩ := runs_recover (recoverable.lock (some id))
  refine ⟨state, { last with lock := none }, ?_, legal, settled.recorded, settled.links,
    settled.quiet, rfl⟩
  have locked : Runs (Installer.lock id) root () { root with lock := some id } := by
    simp [Runs, Installer.lock, Installer.access, Program.alone_action, intact, free]
  have attempted : Runs (Installer.recoverLocked.attempt) { root with lock := some id }
      (.ok state) last := Program.alone_attempt intact ran
  have unlocked : Runs (Installer.unlock id) last () { last with lock := none } := by
    simp [Runs, Installer.unlock, Program.alone_action, Installer.release, lock]
  exact locked.bind (attempted.bind (unlocked.bind rfl))

/-- Crash recovery: whatever calls were cut off, after whatever actions, the lock is free as soon
    as no call runs, and a recovery that finds it free completes in a legal state. -/
theorem recovery_completes (initial : (installer.system Consistent).init start)
    (run : (installer.system Consistent).Run start trace pool) :
    LockAlive pool ∧ (pool.shared.lock = none → ∀ id, pool.calls id = none →
      ∃ state last count, Recovers id pool.shared state last ∧
        (installer.system Consistent).Run pool
          (.start id .recover :: List.replicate count (.turn id) ++ [.finish id (.ok state)])
          { pool with
            shared := last
            calls := Function.update pool.calls id (some .recover) }) := by
  obtain ⟨holds, alive⟩ := run_holds initial run
  refine ⟨alive, fun free id unused => ?_⟩
  obtain ⟨state, last, recovered⟩ := recovers id holds.inv free
  have idle : pool.threads id = none := by
    by_contra running
    obtain ⟨program, thread⟩ := Option.ne_none_iff_exists'.mp running
    obtain ⟨call, known, _⟩ := holds.threads id program thread
    simp [unused] at known
  obtain ⟨count, execution⟩ := Interleaving.calls_alone installer Consistent (fun _ => intact) pool
    id .recover unused idle recovered.completes
  exact ⟨state, last, count, recovered, execution⟩

/-! ## A concrete crash -/

/-- A directory without an installation. -/
def samplePool : Pool Nat Call InstallAnswer (Prefix Nat) String InstallationState where
  shared := ⟨none, none, none, none, none⟩
  calls _ := none
  threads _ := none

/-- The disk fails once the journal is in place. -/
def sampleAnswers (asked : Nat) : InstallAnswer :=
  if asked < 7 then intact else ⟨.error "input/output error", true⟩

theorem sampleUninstall_cut :
    (((installer (κ := Nat)).code 1 .uninstallEntrypoints).alone sampleAnswers 0
      samplePool.shared).map (fun outcome => (outcome.1.lock, outcome.1.journal)) =
      some (none, some ⟨1, .default, none⟩) := by
  decide

/-- The recovery of an uninstallation that was cut off. -/
theorem recovery_completes_sample :
    ∃ pool : Pool Nat Call InstallAnswer (Prefix Nat) String InstallationState,
      (installer.system Consistent).Reachable pool ∧
      pool.shared.journal = some ⟨1, .default, none⟩ ∧
      ∃ state last, Recovers 2 pool.shared state last := by
  have cut := sampleUninstall_cut
  simp only [Option.map_eq_some_iff, Prod.mk.injEq] at cut
  obtain ⟨⟨root, result⟩, ran, free, journal⟩ := cut
  obtain ⟨turns, run⟩ := Interleaving.calls_alone installer Consistent sampleAnswers samplePool 1
    .uninstallEntrypoints rfl rfl ran
  have initial : (installer.system Consistent).init samplePool :=
    ⟨⟨rfl, rfl, rfl, Valid.default, rfl, rfl⟩, rfl, rfl⟩
  obtain ⟨state, last, _, recovered, _⟩ :=
    (recovery_completes initial run).2 free 2 (by simp [samplePool])
  exact ⟨_, ⟨samplePool, _, initial, run⟩, journal, state, last, recovered⟩

end Idk.Verified.Install
