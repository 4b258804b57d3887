import Idk.Verified.Run.Effects

/-!
# Memory and the durable ledger

How the runs in memory, the runs that a process may belong to, and every ledger
that was ever stored hang together.  `Draft` is what holds also of a state that
is about to be stored; storing it makes the rest of `Durability` true.

**Main results:**

- `Draft.write`: storing a snapshot.
- `Durability.effect`: every effect keeps `Durability`.
-/

namespace Idk

open RunRegistry

/-- What a disk whose last write is the head of `disk` allows to recover: no run is
    lost before its cleanup is confirmed, and none of these looks finished. -/
structure Recoverable (disk : List RunLedger) : Prop where
  kept : ∀ ledger ∈ disk, ∀ old ∈ ledger.runs, ConfirmedIn disk old.runId ∨
    ∃ head ∈ disk.head?, ∃ run ∈ head.runs, run.intent = old.intent
  unfinished : ∀ ledger ∈ disk, ∀ run ∈ ledger.runs, run.cleanupConfirmed = false →
    run.state.isLive = true ∨ run.state = .unknown

structure Draft (tickets : BTreeMap BeginTicket) (registry : RunRegistry) : Prop where
  unique : (registry.runs.map (·.runId)).Nodup
  unseen : ∀ runId ticket, tickets[runId]? = some ticket → registry.active[runId]? = none ∧
    (∀ run ∈ registry.runs, run.runId ≠ runId) ∧ ¬ RecordedIn registry.durable runId
  owned : ∀ runId active, registry.active[runId]? = some active → ∃ run ∈ registry.runs,
    run.runId = runId ∧ run.sourceStart.identity = active.plan.repository.map (·.identity)
  unfinished : ∀ run ∈ registry.runs, run.cleanupConfirmed = false →
    run.state.isLive = true ∨ run.state = .unknown
  stopped : ∀ run ∈ registry.runs, run.cleanupConfirmed = true → run.state.isLive = false
  orphan : ∀ run ∈ registry.runs, registry.active[run.runId]? = none →
    run.cleanupConfirmed = false → run.state = .unknown
  kept : ∀ ledger ∈ registry.durable, ∀ old ∈ ledger.runs,
    ConfirmedIn registry.durable old.runId ∨ ∃ run ∈ registry.runs, run.intent = old.intent
  disks : ∀ disk, disk <:+ registry.durable → Recoverable disk
  withheld : ∀ run ∈ registry.runs, registry.active[run.runId]? = none → unresolved run = true →
    ∀ identity, run.sourceStart.identity = some identity →
      (registry.gate identity).providerReady = false

structure Durability (tickets : BTreeMap BeginTicket) (registry : RunRegistry) : Prop extends
    Draft tickets registry where
  intended : ∀ runId active, registry.active[runId]? = some active →
    ∃ head ∈ registry.durable.head?, ∃ entry ∈ head.runs, ∃ run ∈ registry.runs,
      run.runId = runId ∧ entry.intent = run.intent
  confirmed : ∀ run ∈ registry.runs, run.cleanupConfirmed = true →
    (∀ active, registry.active[run.runId]? = some active → active.finishing = false) →
    ConfirmedIn registry.durable run.runId

/-! ## Stored ledgers -/

/-- What was confirmed stays confirmed. -/
theorem ConfirmedIn.later {durable more : List RunLedger} {runId : String}
    (confirmed : ConfirmedIn durable runId) (suffix : durable <:+ more) :
    ConfirmedIn more runId := by
  obtain ⟨ledger, member, recorded⟩ := confirmed
  exact ⟨ledger, suffix.subset member, recorded⟩

theorem ConfirmedIn.cons {durable : List RunLedger} {runId : String} (ledger : RunLedger)
    (confirmed : ConfirmedIn durable runId) : ConfirmedIn (ledger :: durable) runId :=
  confirmed.later (List.suffix_cons ledger durable)

/-- The records of a ledger are these records, up to their observed parts. -/
structure Mirrors (ledger : RunLedger) (runs : List RunInfo) : Prop where
  shown : ∀ run ∈ runs, ∃ entry ∈ ledger.runs, entry.core = run.core
  only : ∀ entry ∈ ledger.runs, ∃ run ∈ runs, entry.core = run.core

theorem ledger_mirrors (registry : RunRegistry) (unique : (registry.runs.map (·.runId)).Nodup)
    (answers : Answers) : Mirrors (registry.ledger answers) registry.runs where
  shown _ member := list_find (find_eq_some unique member)
  only _ listed := list_entry listed

theorem suffix_cons {α : Type} {list rest : List α} {head : α} (part : list <:+ head :: rest) :
    list = head :: rest ∨ list <:+ rest := by
  obtain ⟨front, whole⟩ := part
  cases front with
  | nil => exact .inl whole
  | cons first front =>
    simp only [List.cons_append, List.cons.injEq] at whole
    exact .inr ⟨front, whole.2⟩

/-- Storing a draft settles what it owes to the disk. -/
theorem Draft.write {tickets : BTreeMap BeginTicket} {registry : RunRegistry}
    {ledger : RunLedger} (draft : Draft tickets registry) (mirrors : Mirrors ledger registry.runs) :
    Durability tickets (stored ledger registry) := by
  have kept : ∀ stored ∈ ledger :: registry.durable, ∀ old ∈ stored.runs,
      ConfirmedIn (ledger :: registry.durable) old.runId ∨
        ∃ run ∈ registry.runs, run.intent = old.intent := by
    intro stored member old recorded
    rcases List.mem_cons.mp member with rfl | earlier
    · obtain ⟨run, held, same⟩ := mirrors.only old recorded
      exact .inr ⟨run, held, (core_intent same).symm⟩
    · rcases draft.kept stored earlier old recorded with confirmed | held
      · exact .inl (confirmed.cons ledger)
      · exact .inr held
  have recoverable : Recoverable (ledger :: registry.durable) := by
    refine ⟨fun stored member old recorded => ?_, fun stored member run recorded open_ => ?_⟩
    · rcases kept stored member old recorded with confirmed | ⟨run, held, same⟩
      · exact .inl confirmed
      · obtain ⟨entry, listed, again⟩ := mirrors.shown run held
        exact .inr ⟨ledger, rfl, entry, listed, (core_intent again).trans same⟩
    · rcases List.mem_cons.mp member with rfl | earlier
      · obtain ⟨held, among, same⟩ := mirrors.only run recorded
        rw [core_state same]
        exact draft.unfinished held among (by rw [← core_confirmed same, open_])
      · exact (draft.disks registry.durable (List.suffix_refl _)).unfinished stored earlier run
          recorded open_
  refine { draft with unseen := ?_, kept := kept, disks := ?_, intended := ?_, confirmed := ?_ }
  · intro runId ticket held
    obtain ⟨inactive, absent, unrecorded⟩ := draft.unseen runId ticket held
    refine ⟨inactive, absent, ?_⟩
    rintro ⟨stored, member, entry, recorded, named⟩
    rcases List.mem_cons.mp member with rfl | earlier
    · obtain ⟨run, among, same⟩ := mirrors.only entry recorded
      exact absent run among ((core_runId same).symm.trans named)
    · exact unrecorded ⟨stored, earlier, entry, recorded, named⟩
  · intro disk part
    rcases suffix_cons part with rfl | earlier
    · exact recoverable
    · exact draft.disks disk earlier
  · intro runId active held
    obtain ⟨run, among, named, _⟩ := draft.owned runId active held
    obtain ⟨entry, listed, same⟩ := mirrors.shown run among
    exact ⟨ledger, rfl, entry, listed, run, among, named, core_intent same⟩
  · intro run among confirmed _
    obtain ⟨entry, listed, same⟩ := mirrors.shown run among
    exact ⟨ledger, List.mem_cons_self, entry, listed, core_runId same,
      (core_confirmed same).trans confirmed⟩

/-! ## Revising a record -/

theorem mem_updateFirst_unique {runs : List RunInfo} {runId : String}
    {change : RunInfo → RunInfo} (unique : (runs.map (·.runId)).Nodup) {run : RunInfo}
    (member : run ∈ updateFirst (·.runId == runId) change runs) :
    (run ∈ runs ∧ run.runId ≠ runId) ∨
      ∃ old, runs.find? (·.runId == runId) = some old ∧ run = change old := by
  induction runs with
  | nil => cases member
  | cons head rest inductionHypothesis =>
    obtain ⟨absent, unique⟩ := List.nodup_cons.mp unique
    by_cases here : head.runId = runId
    · simp only [updateFirst, here, beq_self_eq_true, ↓reduceIte, List.mem_cons] at member
      rcases member with rfl | member
      · exact .inr ⟨head, by simp [here], rfl⟩
      · refine .inl ⟨List.mem_cons_of_mem _ member, fun same => absent ?_⟩
        exact List.mem_map.mpr ⟨run, member, same.trans here.symm⟩
    · simp only [updateFirst, beq_iff_eq, here, ↓reduceIte, List.mem_cons] at member
      rcases member with rfl | member
      · exact .inl ⟨List.mem_cons_self, here⟩
      · rcases inductionHypothesis unique member with ⟨held, other⟩ | ⟨old, found, same⟩
        · exact .inl ⟨List.mem_cons_of_mem _ held, other⟩
        · refine .inr ⟨old, ?_, same⟩
          rw [List.find?_cons_of_neg (by simpa using here)]
          exact found

/-- With distinct ids, a revision changes the record found and no other. -/
theorem mem_revise {registry : RunRegistry} {runId : String} {change : RunInfo → RunInfo}
    (unique : (registry.runs.map (·.runId)).Nodup) {run : RunInfo}
    (member : run ∈ (revise runId change registry).runs) :
    (run ∈ registry.runs ∧ run.runId ≠ runId) ∨
      ∃ old, registry.find runId = some old ∧ run = change old :=
  mem_updateFirst_unique unique member

/-- A revision that keeps intents loses none of them. -/
theorem revise_intent {registry : RunRegistry} {runId : String} {change : RunInfo → RunInfo}
    (same : ∀ old, registry.find runId = some old → (change old).intent = old.intent)
    {old : RunInfo} (member : old ∈ registry.runs) :
    ∃ run ∈ (revise runId change registry).runs, run.intent = old.intent := by
  have survives : old ∈ (revise runId change registry).runs ∨
      registry.find runId = some old ∧ change old ∈ (revise runId change registry).runs :=
    mem_updateFirst_of_mem member
  rcases survives with kept | ⟨found, revised⟩
  · exact ⟨old, kept, rfl⟩
  · exact ⟨change old, revised, same old found⟩

section Revise

variable {tickets : BTreeMap BeginTicket} {registry : RunRegistry} {runId : String}
  {change : RunInfo → RunInfo} {old : RunInfo}

/-- What the new record must satisfy. -/
structure Revisable (registry : RunRegistry) (runId : String) (old new : RunInfo) : Prop where
  intent : new.intent = old.intent
  unfinished : new.cleanupConfirmed = false → new.state.isLive = true ∨ new.state = .unknown
  stopped : new.cleanupConfirmed = true → new.state.isLive = false
  orphan : registry.active[runId]? = none → new.cleanupConfirmed = false → new.state = .unknown
  withheld : registry.active[runId]? = none → unresolved new = true → unresolved old = true

theorem Draft.revised (draft : Draft tickets registry) (found : registry.find runId = some old)
    (revisable : Revisable registry runId old (change old)) :
    Draft tickets (revise runId change registry) := by
  obtain ⟨among, named⟩ := find_runId found
  have only (other : RunInfo) (again : registry.find runId = some other) : other = old :=
    Option.some.inj (again.symm.trans found)
  have intents (other : RunInfo) (again : registry.find runId = some other) :
      (change other).intent = other.intent := by
    rw [only other again]
    exact revisable.intent
  have renamed : (change old).runId = runId :=
    (congrArg RunIntent.runId revisable.intent).trans named
  refine { draft with
    unique := ?_, unseen := ?_, owned := ?_, unfinished := ?_, stopped := ?_, orphan := ?_,
    kept := ?_, withheld := ?_ }
  · have same : (revise runId change registry).runs.map (·.runId) =
        registry.runs.map (·.runId) :=
      updateFirst_map _ fun other again => congrArg RunIntent.runId (intents other again)
    rw [same]
    exact draft.unique
  · intro id ticket held
    obtain ⟨inactive, absent, unrecorded⟩ := draft.unseen id ticket held
    refine ⟨inactive, fun run member => ?_, unrecorded⟩
    rcases mem_revise draft.unique member with ⟨kept, _⟩ | ⟨other, again, rfl⟩
    · exact absent run kept
    · rw [only other again, renamed, ← named]
      exact absent old among
  · intro id active held
    obtain ⟨run, member, same, observed⟩ := draft.owned id active held
    obtain ⟨next, revised, intent⟩ := revise_intent intents member
    refine ⟨next, revised, (congrArg RunIntent.runId intent).trans same, ?_⟩
    have start : next.sourceStart = run.sourceStart := congrArg RunIntent.sourceStart intent
    rw [start]
    exact observed
  · intro run member open_
    rcases mem_revise draft.unique member with ⟨kept, _⟩ | ⟨other, again, rfl⟩
    · exact draft.unfinished run kept open_
    · rw [only other again] at open_ ⊢
      exact revisable.unfinished open_
  · intro run member closed
    rcases mem_revise draft.unique member with ⟨kept, _⟩ | ⟨other, again, rfl⟩
    · exact draft.stopped run kept closed
    · rw [only other again] at closed ⊢
      exact revisable.stopped closed
  · intro run member inactive open_
    rcases mem_revise draft.unique member with ⟨kept, _⟩ | ⟨other, again, rfl⟩
    · exact draft.orphan run kept inactive open_
    · rw [only other again] at inactive open_ ⊢
      rw [renamed] at inactive
      exact revisable.orphan inactive open_
  · intro ledger member entry recorded
    rcases draft.kept ledger member entry recorded with confirmed | ⟨run, held, same⟩
    · exact .inl confirmed
    · obtain ⟨next, revised, intent⟩ := revise_intent intents held
      exact .inr ⟨next, revised, intent.trans same⟩
  · intro run member inactive lost identity observed
    rcases mem_revise draft.unique member with ⟨kept, _⟩ | ⟨other, again, rfl⟩
    · exact draft.withheld run kept inactive lost identity observed
    · rw [only other again] at inactive lost observed
      rw [renamed] at inactive
      have start : (change old).sourceStart = old.sourceStart :=
        congrArg RunIntent.sourceStart revisable.intent
      rw [start] at observed
      exact draft.withheld old among (by rw [named]; exact inactive)
        (revisable.withheld inactive lost) identity observed

theorem Durability.revised (holds : Durability tickets registry)
    (found : registry.find runId = some old)
    (revisable : Revisable registry runId old (change old))
    (confirmed : (change old).cleanupConfirmed = true →
      (∀ active, registry.active[runId]? = some active → active.finishing = false) →
      ConfirmedIn registry.durable runId) :
    Durability tickets (revise runId change registry) := by
  have renamed : (change old).runId = runId :=
    (congrArg RunIntent.runId revisable.intent).trans (find_runId found).2
  refine { holds.toDraft.revised found revisable with intended := ?_, confirmed := ?_ }
  · intro id active held
    obtain ⟨head, top, entry, stored, run, member, named, intent⟩ := holds.intended id active held
    have kept (other : RunInfo) (again : registry.find runId = some other) :
        (change other).intent = other.intent := by
      rw [Option.some.inj (again.symm.trans found)]
      exact revisable.intent
    obtain ⟨next, revised, same⟩ := revise_intent kept member
    exact ⟨head, top, entry, stored, next, revised, (congrArg RunIntent.runId same).trans named,
      intent.trans same.symm⟩
  · intro run member closed idle
    rcases mem_revise holds.unique member with ⟨kept, _⟩ | ⟨other, again, rfl⟩
    · exact holds.confirmed run kept closed idle
    · have same : other = old := Option.some.inj (again.symm.trans found)
      subst same
      rw [renamed] at idle ⊢
      exact confirmed closed idle

end Revise

/-! ## Other changes -/

section Changes

variable {tickets : BTreeMap BeginTicket} {registry : RunRegistry}

/-- The gate matters only through the identities it may show as ready. -/
theorem Durability.gate (holds : Durability tickets registry) {gate : SourceGate}
    (withheld : ∀ run ∈ registry.runs, registry.active[run.runId]? = none →
      unresolved run = true → ∀ identity, run.sourceStart.identity = some identity →
      (registry.gate identity).providerReady = false → (gate identity).providerReady = false) :
    Durability tickets { registry with gate := gate } :=
  { holds with
    withheld := fun run member inactive lost identity observed =>
      withheld run member inactive lost identity observed
        (holds.withheld run member inactive lost identity observed) }

theorem drop_ready {gate : SourceGate} {lease : GateLease} (identity : PathBuf) :
    (gate.drop lease identity).providerReady = (gate identity).providerReady := by
  apply SourceGate.modify_field GateState.providerReady
  intro state
  simp only [GateState.dropped]
  split
  · rfl
  · split <;> rfl

theorem reserve_ready {gate next : SourceGate} {identity : PathBuf} {operation : String}
    {run : Option String} {lease : GateLease}
    (granted : gate.reserve identity operation run = .ok (next, lease)) (place : PathBuf) :
    (next place).providerReady = (gate place).providerReady := by
  obtain ⟨_, _, _, _, _, _, rfl⟩ := SourceGate.reserve_eq_ok.mp granted
  apply SourceGate.modify_field GateState.providerReady
  intro state
  cases run <;> rfl

theorem Durability.released (holds : Durability tickets registry) (lease : Option GateLease) :
    Durability tickets (released lease registry) := by
  apply holds.gate
  intro _ _ _ _ identity _ withheld
  cases lease with
  | none => exact withheld
  | some lease => exact (drop_ready identity).trans withheld

/-- Replacing the entry of an active run by one with the same plan. -/
theorem Durability.activated (holds : Durability tickets registry) {runId : String}
    {active next : Active} (owned : registry.active[runId]? = some active)
    (same : next.plan = active.plan)
    (confirmed : next.finishing = false → ∀ run, registry.find runId = some run →
      run.cleanupConfirmed = true → ConfirmedIn registry.durable runId) :
    Durability tickets (activate runId next registry) := by
  have entry (id : String) : (activate runId next registry).active[id]? =
      if runId = id then some next else registry.active[id]? := by
    simp [activate, Std.TreeMap.getElem?_insert]
  have inactive (id : String) (absent : (activate runId next registry).active[id]? = none) :
      registry.active[id]? = none := by
    rw [entry] at absent
    split at absent
    · cases absent
    · exact absent
  refine { holds with
    unseen := ?_, owned := ?_, orphan := ?_, withheld := ?_, intended := ?_, confirmed := ?_ }
  · intro id ticket held
    obtain ⟨absent, unseen⟩ := holds.unseen id ticket held
    refine ⟨?_, unseen⟩
    rw [entry, if_neg, absent]
    rintro rfl
    rw [owned] at absent
    cases absent
  · intro id other held
    rw [entry] at held
    split at held
    · subst runId
      cases held
      rw [same]
      exact holds.owned id active owned
    · exact holds.owned id other held
  · exact fun run member absent => holds.orphan run member (inactive _ absent)
  · exact fun run member absent => holds.withheld run member (inactive _ absent)
  · intro id other held
    rw [entry] at held
    split at held
    · subst runId
      exact holds.intended id active owned
    · exact holds.intended id other held
  · intro run member closed idle
    by_cases here : runId = run.runId
    · subst here
      exact confirmed (idle next (by rw [entry, if_pos rfl])) run
        (find_eq_some holds.unique member) closed
    · apply holds.confirmed run member closed
      intro other held
      exact idle other (by rw [entry, if_neg here, held])

/-- A committed start joins the records and the active runs at once. -/
theorem Draft.committed (draft : Draft tickets registry) {ticket : BeginTicket} {run : RunInfo}
    {entry : Active} (floating : Floating tickets registry ticket)
    (named : run.runId = ticket.runId)
    (starting : run.state = .preparing ∧ run.cleanupConfirmed = false)
    (observed : run.sourceStart.identity = entry.plan.repository.map (·.identity)) :
    Draft tickets (activate ticket.runId entry (appended run registry)) := by
  have active (id : String) : (activate ticket.runId entry (appended run registry)).active[id]? =
      if ticket.runId = id then some entry else registry.active[id]? := by
    simp [activate, appended, Std.TreeMap.getElem?_insert]
  have among {other : RunInfo}
      (member : other ∈ (activate ticket.runId entry (appended run registry)).runs) :
      other ∈ registry.runs ∧ other.runId ≠ ticket.runId ∨ other = run := by
    rcases List.mem_append.mp member with kept | last
    · exact .inl ⟨kept, floating.unseen other kept⟩
    · exact .inr (List.mem_singleton.mp last)
  have elsewhere {other : RunInfo} (apart : other.runId ≠ ticket.runId)
      (absent : (activate ticket.runId entry (appended run registry)).active[other.runId]? = none) :
      registry.active[other.runId]? = none := by
    rwa [active, if_neg (Ne.symm apart)] at absent
  refine ⟨?_, ?_, ?_, ?_, ?_, ?_, ?_, draft.disks, ?_⟩
  · simp only [activate, appended, List.map_append, List.map_cons, List.map_nil]
    apply List.nodup_append.mpr
    refine ⟨draft.unique, by simp, ?_⟩
    intro left member right last
    obtain ⟨other, kept, rfl⟩ := List.mem_map.mp member
    rw [List.mem_singleton.mp last, named]
    exact floating.unseen other kept
  · intro id other held
    obtain ⟨inactive, absent, unrecorded⟩ := draft.unseen id other held
    have apart : ticket.runId ≠ id := by
      rintro rfl
      rw [floating.absent] at held
      cases held
    refine ⟨by rw [active, if_neg apart, inactive], fun next member => ?_, unrecorded⟩
    rcases among member with ⟨kept, _⟩ | rfl
    · exact absent next kept
    · rw [named]
      exact apart
  · intro id other held
    rw [active] at held
    split at held
    · subst id
      cases held
      exact ⟨run, List.mem_append_right _ List.mem_cons_self, named, observed⟩
    · obtain ⟨next, kept, same⟩ := draft.owned id other held
      exact ⟨next, List.mem_append_left _ kept, same⟩
  · intro next member open_
    rcases among member with ⟨kept, _⟩ | rfl
    · exact draft.unfinished next kept open_
    · exact .inl (by rw [starting.1]; rfl)
  · intro next member closed
    rcases among member with ⟨kept, _⟩ | rfl
    · exact draft.stopped next kept closed
    · rw [starting.2] at closed
      cases closed
  · intro next member absent open_
    rcases among member with ⟨kept, apart⟩ | rfl
    · exact draft.orphan next kept (elsewhere apart absent) open_
    · rw [named, active, if_pos rfl] at absent
      cases absent
  · intro ledger member old recorded
    rcases draft.kept ledger member old recorded with confirmed | ⟨next, kept, same⟩
    · exact .inl confirmed
    · exact .inr ⟨next, List.mem_append_left _ kept, same⟩
  · intro next member absent lost identity same
    rcases among member with ⟨kept, apart⟩ | rfl
    · exact draft.withheld next kept (elsewhere apart absent) lost identity same
    · rw [named, active, if_pos rfl] at absent
      cases absent

theorem mem_eraseIdx_of_ne {α : Type} {list : List α} {index : Nat} {gone value : α}
    (here : list[index]? = some gone) (member : value ∈ list) (other : value ≠ gone) :
    value ∈ list.eraseIdx index := by
  obtain ⟨place, at_⟩ := List.mem_iff_getElem?.mp member
  apply List.mem_eraseIdx_iff_getElem?.mpr
  refine ⟨place, ?_, at_⟩
  rintro rfl
  exact other (Option.some.inj (at_.symm.trans here))

/-- What may be removed from the history has been stored as cleaned up. -/
theorem Durability.canRotate_confirmed (holds : Durability tickets registry) {run : RunInfo}
    (member : run ∈ registry.runs) (rotatable : registry.canRotate run = true) :
    ConfirmedIn registry.durable run.runId := by
  simp only [canRotate, Bool.and_eq_true, Bool.not_eq_true'] at rotatable
  apply holds.confirmed run member rotatable.1.2
  intro active held
  simpa [held] using rotatable.2

/-- A removed record takes its active entry along. -/
theorem Draft.retired (holds : Durability tickets registry) {index : Nat} {old : RunInfo}
    {entry : RetiredRun} (here : registry.runs[index]? = some old)
    (rotatable : registry.canRotate old = true) :
    Draft tickets (forget old.runId (retire index entry registry)) := by
  have member : old ∈ registry.runs := List.mem_of_getElem? here
  have alone {other : RunInfo} (held : other ∈ registry.runs.eraseIdx index) :
      other ∈ registry.runs ∧ other.runId ≠ old.runId := by
    refine ⟨List.mem_of_mem_eraseIdx held, fun same => ?_⟩
    obtain ⟨place, apart, at_⟩ := List.mem_eraseIdx_iff_getElem?.mp held
    have named (i : Nat) (run : RunInfo) (found : registry.runs[i]? = some run) :
        (registry.runs.map (·.runId))[i]? = some run.runId := by
      simp [found]
    have bound : place < (registry.runs.map (·.runId)).length := by
      have small := (List.getElem?_eq_some_iff.mp at_).1
      simpa using small
    apply apart
    exact (List.getElem?_inj bound holds.unique).mp
      ((named place other at_).trans ((congrArg some same).trans (named index old here).symm))
  have entries (id : String) : (forget old.runId (retire index entry registry)).active[id]? =
      if old.runId = id then none else registry.active[id]? := by
    simp [forget, RunRegistry.released, retire, Std.TreeMap.getElem?_erase]
  have elsewhere {other : RunInfo} (held : other ∈ registry.runs.eraseIdx index)
      (absent : (forget old.runId (retire index entry registry)).active[other.runId]? = none) :
      registry.active[other.runId]? = none := by
    rwa [entries, if_neg (Ne.symm (alone held).2)] at absent
  have settled : ConfirmedIn registry.durable old.runId :=
    holds.canRotate_confirmed member rotatable
  refine ⟨?_, ?_, ?_, ?_, ?_, ?_, ?_, holds.disks, ?_⟩
  · exact List.Nodup.sublist ((List.eraseIdx_sublist _ _).map _) holds.unique
  · intro id ticket held
    obtain ⟨inactive, absent, unrecorded⟩ := holds.unseen id ticket held
    refine ⟨?_, fun run kept => absent run (alone kept).1, unrecorded⟩
    rw [entries, inactive]
    split <;> rfl
  · intro id active held
    rw [entries] at held
    split at held
    · cases held
    · rename_i apart
      obtain ⟨run, kept, named, observed⟩ := holds.owned id active held
      refine ⟨run, mem_eraseIdx_of_ne here kept ?_, named, observed⟩
      rintro rfl
      exact apart named
  · exact fun run kept => holds.unfinished run (alone kept).1
  · exact fun run kept => holds.stopped run (alone kept).1
  · exact fun run kept absent => holds.orphan run (alone kept).1 (elsewhere kept absent)
  · intro ledger stored run recorded
    rcases holds.kept ledger stored run recorded with confirmed | ⟨next, kept, same⟩
    · exact .inl confirmed
    · by_cases gone : next = old
      · left
        have named : run.runId = old.runId := by
          rw [← gone]
          exact (congrArg RunIntent.runId same).symm
        rw [named]
        exact settled
      · exact .inr ⟨next, mem_eraseIdx_of_ne here kept gone, same⟩
  · intro run kept absent lost identity observed
    refine Eq.trans ?_ (holds.withheld run (alone kept).1 (elsewhere kept absent) lost identity
      observed)
    simp only [forget, RunRegistry.released]
    cases (retire index entry registry).active[old.runId]?.bind (·.lease) with
    | none => rfl
    | some lease => exact drop_ready identity

end Changes

/-! ## Every effect -/

/-- What was stored stays stored. -/
theorem Effect.durable {formats : Formats} {tickets : BTreeMap BeginTicket} {may : May}
    {before after : RunRegistry} (step : Effect formats tickets may before after) :
    before.durable <:+ after.durable := by
  cases step with
  | cleaned step =>
    cases step
    exact List.suffix_cons _ _
  | retired step =>
    cases step
    exact List.suffix_cons _ _
  | persisted valid => exact List.suffix_cons _ _
  | committed floating allowed named starting observed leased valid => exact List.suffix_cons _ _
  | acknowledged inactive allowed found lost valid => exact List.suffix_cons _ _
  | pinned found stopped confirmed toggles room valid => exact List.suffix_cons _ _
  | settled found agrees durable =>
    unfold settle
    split
    · exact List.suffix_refl _
    · split <;> exact List.suffix_refl _
  | _ => exact List.suffix_refl _

theorem live_open {registry : RunRegistry} {tickets : BTreeMap BeginTicket}
    (draft : Draft tickets registry) {runId : String} {run : RunInfo}
    (found : registry.find runId = some run) (live : run.state.isLive = true) :
    run.cleanupConfirmed = false := by
  by_contra closed
  have stopped := draft.stopped run (find_runId found).1 (by simpa using closed)
  rw [live] at stopped
  cases stopped

theorem live_resolved {run : RunInfo} (live : run.state.isLive = true) : unresolved run = false := by
  cases state : run.state <;> simp_all [unresolved, RunState.isLive]

/-- Every effect keeps memory and disk in step. -/
theorem Durability.effect {formats : Formats} {tickets : BTreeMap BeginTicket}
    {may : May} (before after : RunRegistry)
    (holds : Durability tickets before) (step : Effect formats tickets may before after) :
    Durability tickets after := by
  cases step with
  | cleaned step =>
    cases step with
    | @intro _ rest _ first valid =>
      have draft : Draft tickets { before with retired := rest } := { holds.toDraft with }
      exact draft.write (ledger_mirrors _ draft.unique _)
  | retired step =>
    cases step with
    | @intro index old entry _ here rotatable room valid =>
      have draft : Draft tickets (forget old.runId (retire index entry before)) :=
        Draft.retired holds here rotatable
      exact draft.write (ledger_mirrors (retire index entry before) draft.unique _)
  | persisted valid => exact holds.toDraft.write (ledger_mirrors _ holds.unique _)
  | published clear =>
    apply holds.gate
    intro run member _ lost identity observed withheld
    rw [SourceGate.ready, SourceGate.modify_other, withheld]
    rintro rfl
    exact clear run member lost observed
  | granted reserved =>
    apply holds.gate
    intro _ _ _ _ identity _ withheld
    exact (reserve_ready reserved identity).trans withheld
  | pended room => exact { holds with }
  | unpended taken => exact { holds with }
  | dropped floating => exact holds.released _
  | @committed ticket run entry _ floating allowed named starting observed leased valid =>
    have draft : Draft tickets (activate ticket.runId entry (appended run before)) :=
      holds.toDraft.committed floating named ⟨starting.1, starting.2.1⟩
        (by rw [leased.2]; exact observed)
    exact draft.write (ledger_mirrors (appended run before) draft.unique _)
  | lived found live same still =>
    have open_ := same.2.2.trans (live_open holds.toDraft found live)
    refine holds.revised found ⟨same.1, fun _ => .inl still, ?_, ?_, ?_⟩ ?_
    · intro closed
      rw [open_] at closed
      cases closed
    · intro inactive _
      have lost := holds.orphan _ (find_runId found).1 (by rw [(find_runId found).2]; exact inactive)
        (live_open holds.toDraft found live)
      rw [lost] at live
      cases live
    · intro _ lost
      rw [live_resolved still] at lost
      cases lost
    · intro closed
      rw [open_] at closed
      cases closed
  | @acknowledged runId run _ inactive allowed found lost valid =>
    have draft : Draft tickets (revise runId (·.acknowledged) before) :=
      holds.toDraft.revised found
        ⟨rfl, nofun, fun _ => by simp [RunInfo.acknowledged, lost, RunState.isLive], fun _ => nofun,
          fun _ lost => by simp [unresolved, RunInfo.acknowledged] at lost⟩
    exact draft.write (ledger_mirrors _ draft.unique _)
  | ended owned same finishing =>
    apply holds.activated owned same.2
    intro idle
    rw [finishing] at idle
    cases idle
  | concluded owned finishing found same stopped open_ =>
    refine holds.revised found ⟨same.1, fun unconfirmed => .inr (open_ unconfirmed), fun _ => stopped,
      ?_, ?_⟩ ?_
    · intro inactive
      rw [owned] at inactive
      cases inactive
    · intro inactive
      rw [owned] at inactive
      cases inactive
    · intro _ idle
      have stopped := idle _ owned
      rw [finishing] at stopped
      cases stopped
  | @settled runId cleanupConfirmed run found agrees durable =>
    unfold settle
    split
    · exact holds
    · rename_i active owned
      have settles (next : Active) (same : next.plan = active.plan) :
          Durability tickets (activate runId next before) := by
        apply holds.activated owned same
        intro _ other again closed
        apply durable
        rw [← agrees, Option.some.inj (found.symm.trans again), closed]
      split
      · exact (settles { active with finishing := false, lease := none, runUse := false }
          rfl).released _
      · exact settles { active with finishing := false } rfl
  | @pinned runId pinned run _ found stopped confirmed toggles room valid =>
    have draft : Draft tickets (revise runId (·.withPin pinned) before) :=
      holds.toDraft.revised found
        ⟨rfl, holds.unfinished run (find_runId found).1, fun _ => stopped,
          fun _ open_ => by simp [RunInfo.withPin, confirmed] at open_, fun _ => id⟩
    exact draft.write (ledger_mirrors _ draft.unique _)

end Idk
