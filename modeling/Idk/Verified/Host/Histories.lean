import Idk.Verified.Git.SingleFlight
import Idk.Verified.Host.Batches

/-!
# Default-open batches over whole runs

A history is kept beside the host: for every batch the calls of `start_saved` that were made for
it, and when it was continued.

**Main result:** `batches_orderly`.
-/

namespace Idk.Host

open Idk.Logic
open Idk.Logic.Procedure (Ensures)
open Actor

variable {isUuid : IsUuid}

/-! ## The order of a batch -/

/-- The terminals of a project that a batch opens. -/
def persistents (project : Model.Project) : List String :=
  (project.terminals.filter (·.persistent)).map (·.id)

/-- Every persistent terminal once, the default one first and the others as they are declared. -/
structure InOrder (project : Model.Project) (plan : List String) : Prop where
  once : plan.Nodup
  every : plan.Perm (persistents project)
  first : ∀ default, project.defaultTerminal = some default → plan.head? = some default
  others : ∀ default, project.defaultTerminal = some default →
    plan.tail.Sublist (persistents project)
  declared : project.defaultTerminal = none → plan = persistents project

theorem checkUnique_distinct {α : Type} {check : α → Result Unit} {id : α → String}
    {items : List α} {seen ids : List String}
    (checked : items.foldlM (Model.checkUnique check id) seen = .ok ids) :
    (items.map id).Nodup ∧ ∀ item ∈ items, id item ∉ seen := by
  induction items generalizing seen with
  | nil => exact ⟨.nil, fun _ member => by cases member⟩
  | cons head tail inductionHypothesis =>
    rw [List.foldlM_cons] at checked
    obtain ⟨more, first, rest⟩ := bind_eq_ok.mp checked
    obtain ⟨_, _, first⟩ := bind_eq_ok.mp first
    obtain ⟨_, new, same⟩ := bind_eq_ok.mp first
    cases same
    have new : id head ∉ seen := by simpa using ensure_eq_ok.mp new
    obtain ⟨distinct, apart⟩ := inductionHypothesis rest
    refine ⟨List.nodup_cons.mpr ⟨fun member => ?_, distinct⟩, fun item member => ?_⟩
    · obtain ⟨twin, later, same⟩ := List.mem_map.mp member
      exact apart twin later (by simp [same])
    · obtain rfl | later := List.mem_cons.mp member
      · exact new
      · exact fun known => apart item later (List.mem_cons_of_mem _ known)

/-- What a valid project says of its terminals. -/
theorem project_terminals {project : Model.Project} (valid : project.validate isUuid = .ok ()) :
    (persistents project).Nodup ∧
      ∀ default, project.defaultTerminal = some default → default ∈ persistents project := by
  simp only [Model.Project.validate, bind_eq_ok] at valid
  obtain ⟨-, -, -, -, -, -, -, -, -, -, -, -, -, -, -, -, -, -, -, -, ids, checked, _, chosen, -⟩ :=
    valid
  obtain ⟨distinct, -⟩ := checkUnique_distinct checked
  refine ⟨distinct.sublist (List.filter_sublist.map _), fun name named => ?_⟩
  rw [named] at chosen
  have known := ensure_eq_ok.mp chosen
  simp only [List.any_eq_true, Bool.and_eq_true, beq_iff_eq] at known
  obtain ⟨terminal, member, same, persistent⟩ := known
  exact List.mem_map.mpr ⟨terminal, List.mem_filter.mpr ⟨member, persistent⟩, same⟩

theorem defaultsOf_inOrder {project : Model.Project} (valid : project.validate isUuid = .ok ()) :
    InOrder project (defaultsOf project) := by
  obtain ⟨once, known⟩ := project_terminals valid
  cases chosen : project.defaultTerminal with
  | none =>
    have same : defaultsOf project = persistents project := by simp [defaultsOf, persistents, chosen]
    rw [same]
    exact ⟨once, .refl _, by simp [chosen], by simp [chosen], fun _ => rfl⟩
  | some name =>
    have member := known name chosen
    have same : defaultsOf project = name :: (persistents project).erase name := by
      unfold defaultsOf
      rw [chosen]
      exact if_pos (List.contains_iff_mem.mpr member)
    rw [same]
    refine ⟨?_, (List.perm_cons_erase member).symm, ?_, ?_, ?_⟩
    · exact List.nodup_cons.mpr ⟨once.not_mem_erase, once.erase _⟩
    · rintro other same
      simpa [chosen] using same
    · exact fun _ _ => List.erase_sublist
    · simp [chosen]

/-! ## Histories -/

/-- The terminals that were attempted, in order. -/
def attempted (log : List Entry) : List String :=
  log.filterMap fun entry => match entry with
    | .attempted attempt => some attempt.terminal
    | .continued => none

/-- The session of the last attempt, unless that failed or was continued. -/
def waiting (log : List Entry) : Option String :=
  log.getLast?.bind fun entry => match entry with
    | .attempted ⟨_, _, .ok info⟩ => some info.sessionId
    | _ => none

/-- Each attempt comes when what the one before it has started is over, or when the batch was
    continued. -/
inductive InTurn : List Entry → Prop where
  | start : InTurn []
  | attempted {log : List Entry} {attempt : Attempt} (soFar : InTurn log)
      (waits : attempt.waited.map Prod.fst = waiting log)
      (ended : ∀ session slot, attempt.waited = some (session, slot) → Over slot) :
      InTurn (log ++ [.attempted attempt])
  | continued {log : List Entry} (soFar : InTurn log) : InTurn (log ++ [.continued])

/-- The attempt has left a session or a failure. -/
def Batch.Recorded (batch : Batch) (attempt : Attempt) : Prop :=
  match attempt.outcome with
  | .ok info => info.IsOf batch.info.projectId attempt.terminal ∧
      info.sessionId ∈ batch.info.sessions
  | .error _ => batch.info.failures.contains attempt.terminal = true

/-- The history is one of a batch for this project. -/
structure Orderly (project : Model.Project) (log : List Entry) : Prop where
  begun : attempted log <+: defaultsOf project
  inTurn : InTurn log

/-- How far a batch has come. -/
structure Batch.Advanced (batch : Batch) (project : Model.Project) (log : List Entry) :
    Prop where
  named : batch.info.projectId = project.id
  orderly : Orderly project log
  rest : batch.info.state ≠ .cancelled →
    attempted log ++ batch.info.remaining = defaultsOf project
  waits : batch.info.state.isOpen = true → batch.info.waitingSession = waiting log
  closed : batch.info.state.isOpen = false → batch.info.remaining = []
  recorded : ∀ attempt, .attempted attempt ∈ log → batch.Recorded attempt

@[simp] theorem attempted_append (log : List Entry) (attempt : Attempt) :
    attempted (log ++ [.attempted attempt]) = attempted log ++ [attempt.terminal] := by
  simp [attempted]

@[simp] theorem attempted_continued (log : List Entry) :
    attempted (log ++ [.continued]) = attempted log := by
  simp [attempted]

theorem Batch.Recorded.mono {batch last : Batch} {attempt : Attempt}
    (recorded : batch.Recorded attempt) (project : last.info.projectId = batch.info.projectId)
    (sessions : batch.info.sessions ⊆ last.info.sessions)
    (failures : Fails batch.info.failures last.info.failures) : last.Recorded attempt := by
  unfold Batch.Recorded at recorded ⊢
  cases outcome : attempt.outcome with
  | ok info =>
    simp only [outcome] at recorded ⊢
    exact ⟨project ▸ recorded.1, sessions recorded.2⟩
  | error error =>
    simp only [outcome] at recorded ⊢
    exact failures _ recorded

section Advanced

variable {batch : Batch} {project : Model.Project} {log : List Entry}

theorem Batch.Advanced.start {id : String} (project : Model.Project) :
    (⟨⟨id, project.id, .running, [], defaultsOf project, none, ∅⟩, none⟩ : Batch).Advanced
      project [] where
  named := rfl
  orderly := ⟨List.nil_prefix, .start⟩
  rest _ := rfl
  waits _ := rfl
  closed ended := by cases ended
  recorded _ member := by cases member

/-- One attempt. -/
theorem Batch.Advanced.attempt {last : Batch} {attempt : Attempt} {remaining : List String}
    (advanced : batch.Advanced project log) (running : batch.info.state = .running)
    (settled : batch.Settled attempt.waited)
    (next : batch.info.remaining = attempt.terminal :: remaining)
    (info : last.info = { batch.info with
      remaining := remaining, failures := last.info.failures, sessions := last.info.sessions
      waitingSession := waiting [.attempted attempt] })
    (sessions : batch.info.sessions ⊆ last.info.sessions)
    (more : Fails batch.info.failures last.info.failures) (recorded : last.Recorded attempt) :
    last.Advanced project (log ++ [.attempted attempt]) := by
  have plan := advanced.rest (by simp [running])
  have same : last.info.projectId = batch.info.projectId := by rw [info]
  have state : last.info.state = .running := by rw [info, running]
  have split : attempted (log ++ [.attempted attempt]) ++ remaining = defaultsOf project := by
    rw [attempted_append, List.append_assoc, ← plan, next]
    rfl
  refine ⟨same.trans advanced.named, ⟨⟨remaining, split⟩, ?_⟩, fun _ => ?_, fun _ => ?_, ?_, ?_⟩
  · refine .attempted advanced.orderly.inTurn ?_ settled.ended
    rw [settled.session]
    exact advanced.waits (by simp [running, BatchState.isOpen])
  · rw [info]
    exact split
  · rw [info]
    simp [waiting]
  · simp [state, BatchState.isOpen]
  · intro other member
    simp only [List.mem_append, List.mem_singleton, Entry.attempted.injEq] at member
    obtain earlier | rfl := member
    · exact (advanced.recorded other earlier).mono same sessions more
    · exact recorded

theorem Batch.Advanced.ticked {last : Batch} {attempt : Option Attempt}
    (advanced : batch.Advanced project log) (ticked : batch.Ticked last attempt) :
    last.Advanced project (log ++ attempt.toList.map .attempted) := by
  have kept (attempt : Attempt) (member : .attempted attempt ∈ log ++ []) :
      batch.Recorded attempt := by
    rw [List.append_nil] at member
    exact advanced.recorded attempt member
  cases ticked with
  | same => simpa using advanced
  | paused running =>
    refine ⟨advanced.named, ?_, fun _ => ?_, fun _ => ?_, nofun, kept⟩
    · simpa using advanced.orderly
    · simpa using advanced.rest (by simp [running])
    · simpa using advanced.waits (by simp [running, BatchState.isOpen])
  | completed running none_ more =>
    refine ⟨advanced.named, ?_, fun _ => ?_, nofun, fun _ => none_, fun attempt member => ?_⟩
    · simpa using advanced.orderly
    · simpa using advanced.rest (by simp [running])
    · exact (kept attempt member).mono rfl (List.Subset.refl _) more
  | started running settled next more of =>
    refine advanced.attempt running settled next rfl (List.subset_append_left _ _) more ⟨of, ?_⟩
    simp
  | refused running settled next more noted =>
    exact advanced.attempt running settled next rfl (List.Subset.refl _) more noted

theorem Batch.Advanced.continued (advanced : batch.Advanced project log)
    (paused : batch.info.state = .paused) :
    (⟨{ batch.info with waitingSession := none, state := .running }, none⟩ : Batch).Advanced
      project (log ++ [.continued]) := by
  obtain ⟨begun, inTurn⟩ := advanced.orderly
  refine ⟨advanced.named, ⟨?_, .continued inTurn⟩, fun _ => ?_, fun _ => ?_, nofun, ?_⟩
  · rw [attempted_continued]
    exact begun
  · rw [attempted_continued]
    exact advanced.rest (by simp [paused])
  · simp [waiting]
  · intro attempt member
    exact advanced.recorded attempt (by simpa using member)

theorem Batch.Advanced.cancelled (advanced : batch.Advanced project log) :
    (cancelBatch batch).Advanced project log := by
  refine ⟨advanced.named, advanced.orderly, fun kept => ?_, fun open_ => ?_, fun _ => rfl,
    advanced.recorded⟩
  · -- only a batch that was complete before is not cancelled, and nothing remains of it
    have closed : batch.info.state.isOpen = false := by
      by_contra open_
      simp [cancelBatch, open_] at kept
    have state : batch.info.state ≠ .cancelled := by
      simpa [cancelBatch, closed] using kept
    rw [← advanced.rest state, advanced.closed closed]
    rfl
  · cases state : batch.info.state <;> simp [cancelBatch, state, BatchState.isOpen] at open_

end Advanced

/-! ## Runs -/

/-- A host with the histories of its batches. -/
structure Logged where
  world : World
  log : String → List Entry

section Runs

variable (isUuid) (formats : Git.GitFormats)

/-- The histories after an event. -/
def Logged.add (logged : Logged) (event : HostEvent) (after : World) : Logged where
  world := after
  log id := logged.log id ++ event.entries isUuid logged.world.actor id

inductive Logged.Step : Logged → HostEvent → Logged → Prop where
  | taken {logged : Logged} {event : HostEvent} {after : World}
      (step : World.Step isUuid formats logged.world event after) :
      Step logged event (logged.add isUuid event after)

/-- All runs of one host, with the histories of its batches. -/
def loggedSystem : System Logged HostEvent where
  init logged := World.Initial isUuid formats logged.world ∧ ∀ id, logged.log id = []
  step := Logged.Step isUuid formats

variable {isUuid formats}

/-- Every run has its histories. -/
theorem logged_of_run {first last : World} {trace : List HostEvent}
    (run : (hostSystem isUuid formats).Run first trace last) (log : String → List Entry) :
    ∃ final, (loggedSystem isUuid formats).Run ⟨first, log⟩ trace ⟨last, final⟩ := by
  induction run with
  | refl => exact ⟨log, .refl _⟩
  | tail _ taken inductionHypothesis =>
    obtain ⟨middle, earlier⟩ := inductionHypothesis
    exact ⟨_, .tail earlier (.taken taken)⟩

/-! ### The invariant -/

variable (isUuid) in
/-- What is known of a batch and its history; of one that is gone, of the history alone. -/
def Tracks (known : Prop) (log : List Entry) : Option Batch → Prop
  | none => log = [] ∨
      known ∧ ∃ project : Model.Project, project.validate isUuid = .ok () ∧ Orderly project log
  | some batch => known ∧
      ∃ project : Model.Project, project.validate isUuid = .ok () ∧ batch.Advanced project log

theorem Fate.tracks {new known later : Prop} {id : String} {before after : Option Batch}
    {entries log : List Entry} (fate : Fate isUuid new id before entries after)
    (tracks : Tracks isUuid known log before) (fresh : new → ¬ known) (stays : known → later)
    (drawn : new → later) : Tracks isUuid later (log ++ entries) after := by
  cases fate with
  | absent =>
    rw [List.append_nil]
    exact tracks.imp_right fun orderly => ⟨stays orderly.1, orderly.2⟩
  | kept =>
    rw [List.append_nil]
    exact ⟨stays tracks.1, tracks.2⟩
  | evicted closed =>
    rw [List.append_nil]
    obtain ⟨known, project, valid, advanced⟩ := tracks
    exact .inr ⟨stays known, project, valid, advanced.orderly⟩
  | @born definition new valid =>
    have empty : log = [] := tracks.resolve_right fun orderly => fresh new orderly.1
    rw [empty]
    exact ⟨drawn new, definition, valid, .start definition⟩
  | ticked ticked =>
    obtain ⟨known, project, valid, advanced⟩ := tracks
    exact ⟨stays known, project, valid, advanced.ticked ticked⟩
  | continued paused =>
    obtain ⟨known, project, valid, advanced⟩ := tracks
    exact ⟨stays known, project, valid, advanced.continued paused⟩
  | cancelled =>
    rw [List.append_nil]
    obtain ⟨known, project, valid, advanced⟩ := tracks
    exact ⟨stays known, project, valid, advanced.cancelled⟩

variable (isUuid) in
structure Logged.Kept (logged : Logged) : Prop where
  distinct : Function.Injective logged.world.actor.ids
  tracked : ∀ id : String, Tracks isUuid (logged.world.actor.Known id) (logged.log id)
    logged.world.actor.batches[id]?

/-- No id that is drawn from now on is known. -/
theorem not_known {actor : Actor} (distinct : Function.Injective actor.ids) {index : Nat}
    (later : actor.nextId ≤ index) : ¬ actor.Known (actor.ids index) := by
  rintro ⟨earlier, below, same⟩
  have same := distinct same
  omega

theorem Logged.Kept.fresh {logged : Logged} (kept : logged.Kept isUuid) :
    logged.world.actor.batches[logged.world.actor.ids logged.world.actor.nextId]? = none := by
  have tracked := kept.tracked (logged.world.actor.ids logged.world.actor.nextId)
  cases found : logged.world.actor.batches[logged.world.actor.ids logged.world.actor.nextId]? with
  | none => rfl
  | some batch =>
    rw [found] at tracked
    exact absurd tracked.1 (not_known kept.distinct le_rfl)

theorem Advances.known {before after : Actor} {entries : String → List Entry}
    (advances : Advances isUuid before entries after) {id : String} (known : before.Known id) :
    after.Known id := by
  obtain ⟨index, below, same⟩ := known
  exact ⟨index, below.trans_le advances.nextId, by rw [advances.ids, same]⟩

theorem Logged.Kept.step {logged after : Logged} {event : HostEvent} (kept : logged.Kept isUuid)
    (step : Logged.Step isUuid formats logged event after) : after.Kept isUuid := by
  cases step with
  | @taken after step =>
    have advances := step.advances kept.fresh
    refine ⟨?_, fun id => ?_⟩
    · show Function.Injective after.actor.ids
      rw [advances.ids]
      exact kept.distinct
    · refine (advances.fate id).tracks (kept.tracked id) ?_ advances.known ?_
      · rintro ⟨index, from_, -, rfl⟩
        exact not_known kept.distinct from_
      · rintro ⟨index, -, below, same⟩
        exact ⟨index, below, (congrFun advances.ids index).trans same⟩

theorem logged_kept : (loggedSystem isUuid formats).Invariant (Logged.Kept isUuid) where
  initial := by
    rintro ⟨world, log⟩ ⟨initial, empty⟩
    obtain ⟨hostInstance, pid, ledger, slots, instanceId, disk, answers, ids, now, -, -, new⟩ :=
      initial.opened
    refine ⟨initial.distinct, fun id => ?_⟩
    have none_ : world.actor.batches[id]? = none := by
      rw [new]
      exact Std.TreeMap.getElem?_emptyc
    rw [none_]
    exact .inl (empty id)
  preserved _ _ _ kept step := kept.step step

/-! ### After a cancel -/

/-- Nothing more is started for this batch. -/
def Halted (actor : Actor) (id : String) : Prop :=
  actor.quiescing = true ∨ actor.Known id ∧
    ∀ batch : Batch, actor.batches[id]? = some batch → batch.info.state.isOpen = false

theorem attempted_entries {log : List Entry} {entries : List Entry}
    (none_ : entries = [] ∨ entries = [.continued]) :
    attempted (log ++ entries) = attempted log := by
  obtain rfl | rfl := none_
  · rw [List.append_nil]
  · exact attempted_continued log

/-- Only a tick attempts anything. -/
theorem entries_quiet {event : HostEvent} {actor : Actor} (closing : actor.quiescing = true)
    (id : String) : event.entries isUuid actor id = [] ∨
      event.entries isUuid actor id = [.continued] := by
  cases event with
  | ticked answers =>
    left
    simp [HostEvent.entries, attempts_closing closing, attemptsFor]
  | requested client request answers =>
    cases request with
    | continueDefaults name =>
      simp only [HostEvent.entries, Actor.continuing]
      split
      · exact .inr rfl
      · exact .inl rfl
    | _ => exact .inl rfl
  | _ => exact .inl rfl

theorem cancelBatch_closed (batch : Batch) : (cancelBatch batch).info.state.isOpen = false := by
  simp only [cancelBatch]
  split
  · rfl
  · rename_i ended
    simpa using ended

/-- A batch that is not open stays so, and nothing is attempted for it. -/
theorem Fate.halted {new : Prop} {id : String} {before after : Option Batch}
    {entries : List Entry} (fate : Fate isUuid new id before entries after) (old : ¬ new)
    (closed : ∀ batch, before = some batch → batch.info.state.isOpen = false) :
    entries = [] ∧ ∀ batch, after = some batch → batch.info.state.isOpen = false := by
  cases fate with
  | absent | kept => exact ⟨rfl, closed⟩
  | evicted => exact ⟨rfl, nofun⟩
  | born drawn => exact absurd drawn old
  | @ticked batch last attempt ticked =>
    have ended := closed batch rfl
    cases ticked with
    | same => exact ⟨rfl, closed⟩
    | paused running | completed running | started running | refused running =>
      rw [running] at ended
      cases ended
  | @continued batch paused =>
    have ended := closed batch rfl
    rw [paused] at ended
    cases ended
  | @cancelled batch =>
    refine ⟨rfl, ?_⟩
    rintro _ ⟨⟩
    exact cancelBatch_closed batch

theorem Halted.step {logged after : Logged} {event : HostEvent} {id : String}
    (halted : Halted logged.world.actor id) (kept : logged.Kept isUuid)
    (step : Logged.Step isUuid formats logged event after) :
    Halted after.world.actor id ∧ attempted (after.log id) = attempted (logged.log id) := by
  cases step with
  | @taken after step =>
    have advances := step.advances kept.fresh
    obtain closing | ⟨known, closed⟩ := halted
    · exact ⟨.inl (advances.closing closing), attempted_entries (entries_quiet closing id)⟩
    · have old : ¬ logged.world.actor.Drew after.actor id := by
        rintro ⟨index, from_, -, rfl⟩
        exact not_known kept.distinct from_ known
      obtain ⟨none_, ended⟩ := (advances.fate id).halted old closed
      exact ⟨.inr ⟨advances.known known, ended⟩, attempted_entries (.inl none_)⟩

theorem Halted.run {logged last : Logged} {trace : List HostEvent} {id : String}
    (run : (loggedSystem isUuid formats).Run logged trace last) (kept : logged.Kept isUuid)
    (halted : Halted logged.world.actor id) :
    Halted last.world.actor id ∧ attempted (last.log id) = attempted (logged.log id) := by
  induction run with
  | refl => exact ⟨halted, rfl⟩
  | tail earlier taken inductionHypothesis =>
    obtain ⟨halted, same⟩ := inductionHypothesis
    obtain ⟨halted, added⟩ := halted.step (logged_kept.preserved.run earlier kept) taken
    exact ⟨halted, added.trans same⟩

/-- The terminals of the project are attempted in the order of `plan`, each once and in turn, and
    a complete batch has left none out. -/
structure OpenedInOrder (project : Model.Project) (plan : List String) (log : List Entry)
    (batch : Option Batch) : Prop where
  inOrder : InOrder project plan
  once : (attempted log).Nodup
  begun : attempted log <+: plan
  inTurn : InTurn log
  named : ∀ found, batch = some found → found.info.projectId = project.id
  complete : ∀ found, batch = some found → found.info.state = .complete →
    attempted log = plan ∧ ∀ terminal ∈ plan, ∃ attempt,
      .attempted attempt ∈ log ∧ attempt.terminal = terminal ∧ found.Recorded attempt

theorem Orderly.opens {project : Model.Project} {log : List Entry} (orderly : Orderly project log)
    (valid : project.validate isUuid = .ok ()) :
    OpenedInOrder project (defaultsOf project) log none where
  inOrder := defaultsOf_inOrder valid
  once := (defaultsOf_inOrder valid).once.sublist orderly.begun.sublist
  begun := orderly.begun
  inTurn := orderly.inTurn
  named := nofun
  complete := nofun

theorem Batch.Advanced.opens {batch : Batch} {project : Model.Project} {log : List Entry}
    (advanced : batch.Advanced project log) (valid : project.validate isUuid = .ok ()) :
    OpenedInOrder project (defaultsOf project) log (some batch) := by
  refine { advanced.orderly.opens valid with named := ?_, complete := ?_ }
  · rintro _ ⟨⟩
    exact advanced.named
  · rintro _ ⟨⟩ state
    have none_ := advanced.closed (by rw [state]; rfl)
    have all : attempted log = defaultsOf project := by
      rw [← advanced.rest (by simp [state]), none_, List.append_nil]
    refine ⟨all, fun terminal member => ?_⟩
    rw [← all] at member
    obtain ⟨entry, listed, named⟩ := List.mem_filterMap.mp member
    cases entry with
    | continued => cases named
    | attempted attempt =>
      cases named
      exact ⟨attempt, listed, rfl, advanced.recorded attempt listed⟩

end Runs

/-! ### A batch of one terminal -/

def sampleIds (index : Nat) : String := String.ofList (List.replicate (index + 1) 'a')

theorem sampleIds_injective : Function.Injective sampleIds := by
  intro first second same
  have lists := congrArg String.toList same
  simp only [sampleIds, String.toList_ofList] at lists
  have lengths := congrArg List.length lists
  simpa using lengths

def sampleProject : Model.Project where
  id := "project"
  name := "project"
  root := ["/"]
  repository := none
  repositoryBinding := none
  relatedRepositories := []
  defaultTerminal := none
  shell := ⟨none, ["/", "bin", "csh"], false, ["/"], [], none⟩
  terminals := [⟨"terminal", "terminal", ["/"], [], true, none⟩]
  tasks := []
  editor := none

/-- Nothing fails, and the clock shows `now`. -/
def sampleHostAnswers (now : Nat) : HostAnswers where
  now := now
  write := .ok ()
  load := .ok [sampleProject]
  sent := true
  close := .ok ()
  input := .ok ()
  resize := .ok ()
  scroll := .ok ()
  search := .ok ""
  snapshotSince := .ok none
  logDisabled := false
  ticks _ := {
    status := .ok ⟨0, false, none⟩
    initialization := .ok .ready
    close := .ok ()
    waited := .ok none
    closed := .ok ⟨0, false, none⟩
    closedAgain := .ok ⟨0, false, none⟩
    endCollection := .ok ()
    snapshot := .ok ⟨0, false, none⟩
    reapExit := .ok ⟨0, none⟩
    cwd := none }
  children _ := ⟨.ok .running, .ok (), .ok ()⟩
  resultLength _ := none
  git := Git.sampleAnswers "id"
  gitTicks _ := Git.sampleTick
  gitReceives _ := false

def sampleActor : Actor :=
  .new "host" 1 ∅ (Git.openDisk Git.sampleFormats "host" [] fun _ => Git.sampleAnswers "id").state
    sampleIds 0

def sampleUuids : IsUuid := fun _ => true

/-- The host before anything has happened. -/
def sampleStart : Logged := ⟨⟨sampleActor, fun _ => none⟩, fun _ => []⟩

theorem sampleStart_initial :
    (loggedSystem sampleUuids Git.sampleFormats).init sampleStart := by
  refine ⟨⟨fun session => ?_, sampleIds_injective, fun _ => rfl, ?_, ?_⟩, fun _ => rfl⟩
  · simp [sampleStart, sampleActor, Actor.new]
  · exact ⟨"host", 1, none, ∅, "host", [], fun _ => Git.sampleAnswers "id", sampleIds, 0, rfl, rfl,
      rfl⟩
  · intro key slot found
    simp [sampleStart, sampleActor, Actor.new] at found

/-- No id that is drawn is the one of the terminal. -/
theorem sample_loads {actor : Actor} (ids : actor.ids = sampleIds) (now : Nat) :
    actor.Loads sampleUuids fun _ => sampleHostAnswers now := by
  rintro asked projects ⟨⟩ project member
  obtain rfl := List.mem_singleton.mp member
  refine ⟨by decide, fun terminal listed index _ same => ?_⟩
  obtain rfl := List.mem_singleton.mp listed
  have char := congrArg (·.toList.head?) same
  rw [ids] at char
  simp [sampleIds, List.replicate_succ] at char

/-- The project is to be opened. -/
def sampleAsked : Logged :=
  sampleStart.add sampleUuids
    (.requested "client" (.startDefaults "project") fun _ => sampleHostAnswers 0)
    ⟨sampleActor.after (execute sampleUuids Git.sampleFormats "client" (.startDefaults "project"))
      fun _ => sampleHostAnswers 0, fun _ => none⟩

/-- A tick has started its terminal. -/
def sampleTicked : Logged :=
  sampleAsked.add sampleUuids (.ticked fun _ => sampleHostAnswers 100)
    ⟨sampleAsked.world.actor.after (tick sampleUuids) fun _ => sampleHostAnswers 100, fun _ => none⟩

end Idk.Host
