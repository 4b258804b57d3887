import Idk.Run.Operations
import Mathlib.Data.List.Nodup

/-!
# What a stored ledger says about memory

`persist` does not store the records themselves but what `list` makes of them,
and that may change the observed parts: steps, log and error.  The rest of a
record, its `core`, reaches the disk unchanged.

**Main results:**

- `list_core`: with distinct run ids, the stored records are the records in
  memory up to these parts.
- `persist_cases`, `saving_cases`: the two ways a write can end.
- `revise_revise`: undoing a revision restores the registry.
-/

namespace Idk

open Idk.Logic (Procedure Outcome)
open RunRegistry

/-- A record without the parts that observation may replace. -/
def RunInfo.core (run : RunInfo) : RunInfo :=
  { run with
    steps := []
    error := none
    log :=
      { runId := "", generation := 0, state := .disabled, bytes := 0, observedBytes := 0,
        limitBytes := 0, mergedPty := false, fileIdentity := none } }

/-- What identifies a run and what it was started on. -/
structure RunIntent where
  runId : String
  operationId : String
  projectId : String
  taskId : String
  launchDigest : String
  buildOutputs : List PathBuf
  sourceStart : SourceObservation
deriving DecidableEq

def RunInfo.intent (run : RunInfo) : RunIntent where
  runId := run.runId
  operationId := run.operationId
  projectId := run.projectId
  taskId := run.taskId
  launchDigest := run.launchDigest
  buildOutputs := run.buildOutputs
  sourceStart := run.sourceStart

/-- Whatever the core determines agrees on records with one core. -/
theorem core_view {α : Type} (view : RunInfo → α) (cored : ∀ run : RunInfo, view run.core = view run)
    {left right : RunInfo} (same : left.core = right.core) : view left = view right := by
  rw [← cored left, same, cored right]

section Core

variable {left right : RunInfo} (same : left.core = right.core)
include same

theorem core_intent : left.intent = right.intent :=
  core_view (·.intent) (fun _ => rfl) same

theorem core_runId : left.runId = right.runId :=
  core_view (·.runId) (fun _ => rfl) same

theorem core_state : left.state = right.state :=
  core_view (·.state) (fun _ => rfl) same

theorem core_confirmed : left.cleanupConfirmed = right.cleanupConfirmed :=
  core_view (·.cleanupConfirmed) (fun _ => rfl) same

theorem core_pinned : left.pinned = right.pinned :=
  core_view (·.pinned) (fun _ => rfl) same

end Core

/-! ## Observation -/

theorem observeLog_core {answers : Answers} {registry : RunRegistry} {runId : String}
    {run observed : RunInfo} (seen : registry.observeLog answers runId run = .ok observed) :
    observed.core = run.core := by
  unfold observeLog at seen
  split at seen
  · cases seen
    rfl
  · split at seen
    · cases seen
      rfl
    · cases seen
    · split at seen
      · cases seen
        rfl
      · split at seen
        · cases seen
          rfl
        · split at seen <;>
          · cases seen
            rfl

/-- `info` finds a record and changes its observed parts only. -/
theorem info_core {answers : Answers} {registry : RunRegistry} {runId : String}
    {observed : RunInfo} (seen : registry.info answers runId = .ok observed) :
    ∃ run, registry.find runId = some run ∧ observed.core = run.core := by
  obtain ⟨run, found, seen⟩ := bind_eq_ok.mp seen
  refine ⟨run, context_eq_ok.mp found, ?_⟩
  split at seen
  · exact observeLog_core seen
  · split at seen
    · rw [observeLog_core seen]
      rfl
    · rw [observeLog_core seen]
      rfl

theorem find_runId {registry : RunRegistry} {runId : String} {run : RunInfo}
    (found : registry.find runId = some run) : run ∈ registry.runs ∧ run.runId = runId := by
  refine ⟨List.mem_of_find?_eq_some found, ?_⟩
  simpa using List.find?_some found

theorem find_of_mem {registry : RunRegistry} {run : RunInfo} (member : run ∈ registry.runs) :
    ∃ found, registry.find run.runId = some found := by
  apply Option.isSome_iff_exists.mp
  rw [find, List.find?_isSome]
  exact ⟨run, member, by simp⟩

/-- The first record with an id is the only one when ids are distinct. -/
theorem find_eq_some {registry : RunRegistry} (unique : (registry.runs.map (·.runId)).Nodup)
    {run : RunInfo} (member : run ∈ registry.runs) : registry.find run.runId = some run := by
  obtain ⟨found, search⟩ := find_of_mem member
  obtain ⟨held, same⟩ := find_runId search
  rw [search, List.inj_on_of_nodup_map unique held member same]

/-- What `list` shows of each record. -/
theorem list_entry {answers : Answers} {registry : RunRegistry} {entry : RunInfo}
    (listed : entry ∈ registry.list answers) :
    ∃ run ∈ registry.runs, entry.core = run.core := by
  obtain ⟨run, member, shown⟩ := List.mem_map.mp listed
  split at shown
  · rename_i observed seen
    obtain ⟨found, search, same⟩ := info_core seen
    rw [← shown]
    exact ⟨found, (find_runId search).1, same⟩
  · rw [← shown]
    exact ⟨run, member, rfl⟩

/-- The record found under an id is shown under this id. -/
theorem list_find {answers : Answers} {registry : RunRegistry} {runId : String} {run : RunInfo}
    (search : registry.find runId = some run) :
    ∃ entry ∈ registry.list answers, entry.core = run.core := by
  obtain ⟨member, rfl⟩ := find_runId search
  cases seen : registry.info answers run.runId with
  | ok observed =>
    refine ⟨observed, List.mem_map.mpr ⟨run, member, by simp only [seen]⟩, ?_⟩
    obtain ⟨found, again, same⟩ := info_core seen
    rw [same, Option.some.inj (again.symm.trans search)]
  | error error =>
    exact ⟨_, List.mem_map.mpr ⟨run, member, rfl⟩, by simp only [seen]; rfl⟩

theorem list_core {registry : RunRegistry} (unique : (registry.runs.map (·.runId)).Nodup)
    (answers : Answers) :
    (registry.list answers).map (·.core) = registry.runs.map (·.core) := by
  rw [RunRegistry.list, List.map_map]
  apply List.map_congr_left
  intro run member
  simp only [Function.comp]
  split
  · rename_i observed seen
    obtain ⟨found, search, same⟩ := info_core seen
    rw [same, Option.some.inj (search.symm.trans (find_eq_some unique member))]
  · rfl

/-- Ledgers agree with memory on whatever the core of a record determines. -/
theorem list_map {α : Type} {registry : RunRegistry}
    (unique : (registry.runs.map (·.runId)).Nodup) (answers : Answers) (view : RunInfo → α)
    (cored : ∀ run : RunInfo, view run.core = view run) :
    (registry.list answers).map view = registry.runs.map view := by
  have same := congrArg (List.map view) (list_core unique answers)
  simpa only [List.map_map, Function.comp_def, cored] using same

/-! ## Writing -/

theorem persist_cases (formats : Formats) (answers : Nat → Answers) (asked : Nat)
    (registry : RunRegistry) :
    (∃ error, persist formats answers asked registry = ⟨.error error, asked + 1, registry⟩) ∨
    ((registry.ledger (answers asked)).validate formats = .ok () ∧
      (answers asked).write = .ok () ∧
      persist formats answers asked registry =
        ⟨.ok (), asked + 1, stored (registry.ledger (answers asked)) registry⟩) := by
  simp only [persist, Bind.bind, Procedure.current, Procedure.answer, liftM, monadLift,
    MonadLift.monadLift, Procedure.lift, Procedure.update]
  cases valid : (registry.ledger (answers asked)).validate formats with
  | error error => exact .inl ⟨error, rfl⟩
  | ok done =>
    cases written : (answers asked).write with
    | error error => exact .inl ⟨error, rfl⟩
    | ok done => exact .inr ⟨rfl, rfl, rfl⟩

/-- Either the write succeeded and `after` followed, or nothing happened. -/
theorem saving_cases (formats : Formats) {change undo : RunRegistry → RunRegistry}
    (after : RunRegistry → RunRegistry) (answers : Nat → Answers) (asked : Nat) {registry : RunRegistry}
    (undoes : undo (change registry) = registry) :
    (∃ error, saving formats change undo after answers asked registry =
      ⟨.error error, asked + 1, registry⟩) ∨
    (((change registry).ledger (answers asked)).validate formats = .ok () ∧
      saving formats change undo after answers asked registry =
        ⟨.ok (), asked + 1,
          after (stored ((change registry).ledger (answers asked)) (change registry))⟩) := by
  simp only [saving, Bind.bind, Procedure.update, Procedure.attempt]
  rcases persist_cases formats answers asked (change registry) with ⟨error, failed⟩ |
    ⟨valid, _, written⟩
  · left
    refine ⟨error, ?_⟩
    rw [failed]
    simp only [undoes]
    rfl
  · right
    refine ⟨valid, ?_⟩
    rw [written]
    rfl

theorem saving_atomic {formats : Formats} {change undo after : RunRegistry → RunRegistry}
    (undoes : ∀ registry, undo (change registry) = registry) :
    Procedure.Atomic (saving formats change undo after) := by
  intro answers asked registry error failed
  rcases saving_cases formats after answers asked (undoes registry) with ⟨_, ended⟩ | ⟨_, ended⟩
  · rw [ended]
  · rw [ended] at failed
    cases failed

/-! ## Revising one record -/

theorem updateFirst_updateFirst {α : Type} {test : α → Bool} {change undo : α → α} {list : List α}
    {first : α} (found : list.find? test = some first) (kept : test (change first) = true)
    (undoes : undo (change first) = first) :
    updateFirst test undo (updateFirst test change list) = list := by
  induction list with
  | nil => cases found
  | cons head rest inductionHypothesis =>
    by_cases here : test head = true
    · rw [List.find?_cons_of_pos here, Option.some.injEq] at found
      subst found
      simp [updateFirst, here, kept, undoes]
    · rw [List.find?_cons_of_neg here] at found
      simp [updateFirst, here, inductionHypothesis found]

theorem revise_revise {registry : RunRegistry} {runId : String} {change undo : RunInfo → RunInfo}
    {run : RunInfo} (found : registry.find runId = some run) (kept : (change run).runId = runId)
    (undoes : undo (change run) = run) :
    revise runId undo (revise runId change registry) = registry := by
  have restored := updateFirst_updateFirst found (by simp [kept]) undoes
  simp only [revise]
  rw [restored]

theorem find_updateFirst {α : Type} {test : α → Bool} {change : α → α} {list : List α} {first : α}
    (found : list.find? test = some first) (kept : test (change first) = true) :
    (updateFirst test change list).find? test = some (change first) := by
  induction list with
  | nil => cases found
  | cons head rest inductionHypothesis =>
    by_cases here : test head = true
    · rw [List.find?_cons_of_pos here, Option.some.injEq] at found
      subst found
      rw [updateFirst, if_pos here, List.find?_cons_of_pos kept]
    · rw [List.find?_cons_of_neg here] at found
      rw [updateFirst, if_neg here, List.find?_cons_of_neg here]
      exact inductionHypothesis found

/-- The revised record is the one found under its id. -/
theorem find_revise {registry : RunRegistry} {runId : String} {change : RunInfo → RunInfo}
    {run : RunInfo} (found : registry.find runId = some run) (kept : (change run).runId = run.runId) :
    (revise runId change registry).find runId = some (change run) :=
  find_updateFirst found (by simp [kept, (find_runId found).2])

theorem updateFirst_map {α β : Type} {test : α → Bool} {change : α → α} {list : List α}
    (view : α → β) (same : ∀ value, list.find? test = some value →
      view (change value) = view value) :
    (updateFirst test change list).map view = list.map view := by
  induction list with
  | nil => rfl
  | cons head rest inductionHypothesis =>
    by_cases here : test head = true
    · simp [updateFirst, here, same head (List.find?_cons_of_pos here)]
    · simp only [updateFirst, here, Bool.false_eq_true, ↓reduceIte, List.map_cons]
      rw [inductionHypothesis]
      intro value found
      exact same value (by rw [List.find?_cons_of_neg here]; exact found)

theorem mem_updateFirst {α : Type} {test : α → Bool} {change : α → α} {list : List α} {value : α}
    (member : value ∈ updateFirst test change list) :
    value ∈ list ∨ ∃ first, list.find? test = some first ∧ value = change first := by
  induction list with
  | nil => cases member
  | cons head rest inductionHypothesis =>
    by_cases here : test head = true
    · simp only [updateFirst, here, ↓reduceIte, List.mem_cons] at member
      rcases member with rfl | member
      · exact .inr ⟨head, List.find?_cons_of_pos here, rfl⟩
      · exact .inl (List.mem_cons_of_mem _ member)
    · simp only [updateFirst, here, Bool.false_eq_true, ↓reduceIte, List.mem_cons] at member
      rcases member with rfl | member
      · exact .inl List.mem_cons_self
      · rcases inductionHypothesis member with kept | ⟨first, found, same⟩
        · exact .inl (List.mem_cons_of_mem _ kept)
        · refine .inr ⟨first, ?_, same⟩
          rw [List.find?_cons_of_neg here]
          exact found

/-- Every record survives a revision, revised or as it was. -/
theorem mem_updateFirst_of_mem {α : Type} {test : α → Bool} {change : α → α} {list : List α}
    {value : α} (member : value ∈ list) :
    value ∈ updateFirst test change list ∨
      list.find? test = some value ∧ change value ∈ updateFirst test change list := by
  induction list with
  | nil => cases member
  | cons head rest inductionHypothesis =>
    by_cases here : test head = true
    · simp only [updateFirst, here, ↓reduceIte, List.mem_cons]
      rcases List.mem_cons.mp member with rfl | member
      · exact .inr ⟨List.find?_cons_of_pos here, .inl rfl⟩
      · exact .inl (.inr member)
    · simp only [updateFirst, here, Bool.false_eq_true, ↓reduceIte, List.mem_cons]
      rw [List.find?_cons_of_neg here]
      rcases List.mem_cons.mp member with rfl | member
      · exact .inl (.inl rfl)
      · rcases inductionHypothesis member with kept | ⟨found, revised⟩
        · exact .inl (.inr kept)
        · exact .inr ⟨found, .inr revised⟩

end Idk
