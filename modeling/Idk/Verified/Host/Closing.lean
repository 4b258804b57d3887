import Idk.Verified.Host.Histories
import Idk.Verified.Host.Lives

/-!
# Reviewed closes and shutdown

A close of a project or of the whole host is accepted for exactly the sessions that were
reviewed, and asks for the close of each of them.  A host that is shutting down admits nothing
more.

**Main result:** `reviewed_close`.
-/

namespace Idk.Host

open Idk.Logic
open Idk.Logic.Procedure (Ensures)
open Relation (ReflTransGen)
open Actor

variable {isUuid : IsUuid} {answers : Nat → HostAnswers} {actor after : Actor}

/-! ## The close of one session -/

/-- The session is live and of this project, or of any. -/
def Slot.targeted (slot : Slot) (project : Option String) : Bool :=
  slot.isLive && project.all (· == slot.info.projectId)

/-- The close of the session has been asked for. -/
structure Slot.Asked (before after : Slot) (force : Bool) : Prop where
  state : after.info.state = .closing
  requested : after.cleanup.requested = true
  forced : after.cleanup.force = (before.cleanup.force || force)

/-- The request has been passed on: to the run worker, which records the cancellation of the run
    first, or else to the PTY host. -/
def Actor.Passed (actor : Actor) (session : String) (slot : Slot) (runsDead force : Bool) : Prop :=
  match slot.runToCancel runsDead with
  | some runId => slot.runCancelPending = true ∨ .cancel runId force ∈ actor.runs.working
  | none => slot.runtime.isSome = true →
      .signalled session slot.purpose.runId slot.runCancelDurable runsDead ∈ actor.history

theorem Actor.Passed.kept {session : String} {slot : Slot} {runsDead force : Bool}
    (passed : actor.Passed session slot runsDead force) (history : actor.history ⊆ after.history)
    (working : actor.runs.working ⊆ after.runs.working) :
    after.Passed session slot runsDead force := by
  unfold Passed at passed ⊢
  split
  · rename_i runId waits
    rw [waits] at passed
    exact passed.imp_right fun member => working member
  · rename_i waits
    rw [waits] at passed
    exact fun running => history (passed running)

/-- The happening is the record of a ledger, or it is about one of these sessions. -/
def Happening.Within (sessions : List String) : Happening → Prop
  | .persisted _ => True
  | .signalled session _ _ _ => session ∈ sessions
  | _ => False

/-- The work cancels the run of one of these sessions. -/
def Work.Cancels (sessions : List String) (actor : Actor) (work : Work) : Prop :=
  ∃ session ∈ sessions, ∃ (slot : Slot) (runId : String) (level : Bool),
    actor.slots[session]? = some slot ∧ slot.purpose.runId = some runId ∧
      work = .cancel runId level

theorem runToCancel_run {slot : Slot} {runsDead : Bool} {runId : String}
    (waits : slot.runToCancel runsDead = some runId) : slot.purpose.runId = some runId := by
  unfold Slot.runToCancel at waits
  split at waits
  · exact waits
  · cases waits

/-- What the close of some sessions does to everything else. -/
structure Closing (sessions : List String) (before after : Actor) : Prop where
  others : ∀ key : String, key ∉ sessions → after.slots[key]? = before.slots[key]?
  runsDead : after.runsDead = before.runsDead
  quiescing : after.quiescing = before.quiescing
  history : before.history ⊆ after.history
  working : before.runs.working ⊆ after.runs.working
  signals : ∀ happening ∈ after.history, happening ∈ before.history ∨ happening.Within sessions
  cancels : ∀ work ∈ after.runs.working, work ∈ before.runs.working ∨ work.Cancels sessions before

namespace Closing

variable {session : String} {sessions : List String} {before : Actor}

theorem refl (actor : Actor) : Closing sessions actor actor :=
  ⟨fun _ _ => rfl, rfl, rfl, List.Subset.refl _, List.Subset.refl _, fun _ => .inl, fun _ => .inl⟩

theorem modified (closing : Closing [session] before after) (change : Slot → Slot) :
    Closing [session] before (modifySlot session change after) := by
  refine ⟨fun key apart => ?_, closing.runsDead, closing.quiescing, closing.history,
    closing.working, closing.signals, closing.cancels⟩
  rw [modifySlot_get, if_neg fun same => apart (List.mem_singleton.mpr same.symm)]
  exact closing.others key apart

theorem stored (closing : Closing sessions before after) (token : String) :
    Closing sessions before (storeCancel token after) :=
  ⟨closing.others, closing.runsDead, closing.quiescing, closing.history, closing.working,
    closing.signals, closing.cancels⟩

theorem recorded (closing : Closing sessions before after) {happening : Happening}
    (within : happening.Within sessions) : Closing sessions before (record happening after) := by
  refine ⟨closing.others, closing.runsDead, closing.quiescing,
    List.subset_cons_of_subset _ closing.history, closing.working, fun other member => ?_,
    closing.cancels⟩
  rcases List.mem_cons.mp member with rfl | earlier
  · exact .inr within
  · exact closing.signals other earlier

theorem gave (closing : Closing sessions before after) {work : Work}
    (cancels : work.Cancels sessions before) :
    Closing sessions before { after with runs := after.runs.give work } := by
  refine ⟨closing.others, closing.runsDead, closing.quiescing, closing.history,
    List.Subset.trans closing.working (List.subset_append_left _ _), closing.signals,
    fun other member => ?_⟩
  rcases List.mem_append.mp member with earlier | new
  · exact closing.cancels other earlier
  · exact .inr (List.mem_singleton.mp new ▸ cancels)

/-- One session after the other. -/
theorem cons {last : Actor} (new : session ∉ sessions) (first : Closing [session] before after)
    (rest : Closing sessions after last) : Closing (session :: sessions) before last where
  others key apart := by
    obtain ⟨here, there⟩ := not_or.mp (fun either => apart (List.mem_cons.mpr either))
    exact (rest.others key there).trans (first.others key (by simpa using here))
  runsDead := rest.runsDead.trans first.runsDead
  quiescing := rest.quiescing.trans first.quiescing
  history := List.Subset.trans first.history rest.history
  working := List.Subset.trans first.working rest.working
  signals happening member := by
    rcases rest.signals happening member with earlier | later
    · refine (first.signals happening earlier).imp_right fun within => ?_
      cases happening with
      | signalled => exact List.mem_cons.mpr (.inl (List.mem_singleton.mp within))
      | _ => exact within
    · cases happening with
      | signalled => exact .inr (List.mem_cons_of_mem _ later)
      | _ => exact .inr later
  cancels work member := by
    rcases rest.cancels work member with earlier | ⟨other, later, slot, runId, level, found, of, same⟩
    · refine (first.cancels work earlier).imp_right ?_
      rintro ⟨other, here, known⟩
      exact ⟨other, List.mem_cons.mpr (.inl (List.mem_singleton.mp here)), known⟩
    · have apart : other ∉ [session] := fun same => new (List.mem_singleton.mp same ▸ later)
      exact .inr ⟨other, List.mem_cons_of_mem _ later, slot, runId, level,
        (first.others other apart) ▸ found, of, same⟩

theorem passed (closing : Closing sessions before after) {slot : Slot} {runsDead force : Bool}
    (passed : before.Passed session slot runsDead force) :
    after.Passed session slot runsDead force :=
  passed.kept closing.history closing.working

end Closing

/-- The request is noted in the slot and nothing else happens. -/
theorem noted_close {session : String} {slot : Slot} (force : Bool)
    (found : actor.slots[session]? = some slot) :
    Ensures answers (· = actor) (noteRequest session force)
      (fun _ last => ∃ now, last = modifySlot session (·.requested force now)
        (storeCancel slot.cancel actor) ∧
          last.slots[session]? = some (slot.requested force now)) (fun _ => False) := by
  refine (noteRequest_ends force found).consequence (fun _ => id) ?_ fun _ => id
  rintro _ _ ⟨now, rfl⟩
  exact ⟨now, rfl, modified_get found _⟩

theorem hostClose_ends {session : String} {slot : Slot} (found : actor.slots[session]? = some slot) :
    Ensures answers (· = actor) (hostClose session)
      (fun _ last => last = actor.record
        (.signalled session slot.purpose.runId slot.runCancelDurable actor.runsDead))
      (fun _ => False) :=
  thenSlot found (.thenRead (.thenUpdate (.thenAsk fun _ => .done rfl)))

theorem requestClose_ends {session : String} {slot : Slot} (force : Bool)
    (found : actor.slots[session]? = some slot) (live : slot.isLive = true) :
    Ensures answers (· = actor) (requestClose session force)
      (fun _ last => Closing [session] actor last ∧ ∃ after, last.slots[session]? = some after ∧
        slot.Asked after force ∧ last.Passed session slot actor.runsDead force)
      (Closing [session] actor) := by
  refine thenSlot found (.thenRead ?_)
  cases waits : slot.runToCancel actor.runsDead with
  | some runId =>
    dsimp only
    refine .branch (fun _ => ?_) fun pending => ?_
    · refine .thenCall ((sendWork_ends _ _ actor).relax fun _ same => same.symm ▸ .refl actor) rfl ?_
      rintro _ _ ⟨rfl, -⟩
      have gave := (@Closing.refl [session] actor).gave ⟨session, List.mem_singleton.mpr rfl, slot,
        runId, force, found, runToCancel_run waits, rfl⟩
      let pending (slot : Slot) : Slot := { slot with runCancelPending := true }
      have here : (modifySlot session pending { actor with
          runs := actor.runs.give (.cancel runId force) }).slots[session]? = some (pending slot) :=
        @modified_get { actor with runs := actor.runs.give (.cancel runId force) } _ _ found pending
      refine .thenUpdate (.tail ((noted_close force here).consequence (fun _ => id) ?_
        fun _ => False.elim) rfl)
      rintro _ _ ⟨now, rfl, there⟩
      refine ⟨((gave.modified _).stored _).modified _, _, there, ⟨rfl, rfl, rfl⟩, ?_⟩
      simp only [Passed, waits]
      exact .inr (List.mem_append_right _ (List.mem_singleton.mpr rfl))
    · refine .tail ((noted_close force found).consequence (fun _ => id) ?_ fun _ => False.elim) rfl
      rintro _ _ ⟨now, rfl, there⟩
      refine ⟨((Closing.refl actor).stored _).modified _, _, there, ⟨rfl, rfl, rfl⟩, ?_⟩
      simp only [Passed, waits]
      exact .inl (by simpa using pending)
  | none =>
    dsimp only
    refine .branch (fun _ => ?_) fun ended => absurd live ended
    refine .thenCall ((noted_close force found).relax fun _ => False.elim) rfl ?_
    rintro _ last ⟨now, rfl, there⟩
    have noted := ((@Closing.refl [session] actor).stored slot.cancel).modified
      (·.requested force now)
    refine .branch (fun _ => ?_) fun absent => .done ⟨noted, _, there, ⟨rfl, rfl, rfl⟩, ?_⟩
    · refine .thenCall ((hostClose_ends there).relax fun _ => False.elim) rfl ?_
      rintro outcome middle rfl
      have signalled : Closing [session] actor (record
          (.signalled session slot.purpose.runId slot.runCancelDurable actor.runsDead) _) :=
        noted.recorded (List.mem_singleton.mpr rfl)
      cases outcome with
      | ok done =>
        refine .done ⟨signalled, _, there, ⟨rfl, rfl, rfl⟩, ?_⟩
        simp only [Passed, waits]
        exact fun _ => List.mem_cons_self
      | error error => exact .thenUpdate (.failing (signalled.modified _))
    · simp only [Passed, waits]
      exact fun running => absurd running absent

/-! ## All of them -/

/-- What the loop over the reviewed sessions has done. -/
structure Closed (sessions : List String) (force : Bool) (errors : BTreeMap String)
    (before : Actor) (final : BTreeMap String) (after : Actor) : Prop where
  closing : Closing sessions before after
  others : ∀ key : String, key ∉ sessions → final[key]? = errors[key]?
  more : ∀ key : String, final[key]? = none → errors[key]? = none
  asked : ∀ session ∈ sessions, ∀ slot, before.slots[session]? = some slot →
    final[session]? = none → ∃ last, after.slots[session]? = some last ∧
      slot.Asked last force ∧ after.Passed session slot before.runsDead force

theorem closeEach_ends (force : Bool) {sessions : List String} (distinct : sessions.Nodup)
    (live : ∀ session ∈ sessions, ∃ slot, actor.slots[session]? = some slot ∧ slot.isLive = true)
    (errors : BTreeMap String) :
    Ensures answers (· = actor) (closeEach force errors sessions)
      (Closed sessions force errors actor) (fun _ => False) := by
  induction sessions generalizing actor errors with
  | nil =>
    exact .done ⟨.refl actor, fun _ _ => rfl, fun _ => id, fun _ member => by cases member⟩
  | cons session rest inductionHypothesis =>
    obtain ⟨here, distinct⟩ := List.nodup_cons.mp distinct
    obtain ⟨slot, found, alive⟩ := live session List.mem_cons_self
    -- the rest is as it was when the first one has been asked for
    have others : ∀ {last : Actor}, Closing [session] actor last → ∀ other ∈ rest,
        last.slots[other]? = actor.slots[other]? :=
      fun closing other member => closing.others other fun same => by
        obtain rfl := List.mem_singleton.mp same
        exact here member
    have still : ∀ {last : Actor}, Closing [session] actor last → ∀ other ∈ rest,
        ∃ slot, last.slots[other]? = some slot ∧ slot.isLive = true := by
      intro last closing other member
      rw [others closing other member]
      exact live other (List.mem_cons_of_mem _ member)
    refine .thenAttempt (requestClose_ends force found alive) rfl ?_ ?_
    · rintro _ middle ⟨closing, asked⟩
      refine .tail ((inductionHypothesis distinct (still closing) errors).consequence (fun _ => id)
        (fun final last closed => ?_) fun _ => id) rfl
      refine ⟨closing.cons here closed.closing, fun key apart => ?_, closed.more, ?_⟩
      · exact closed.others key fun member => apart (List.mem_cons_of_mem _ member)
      · intro other member slot known unreported
        rcases List.mem_cons.mp member with rfl | member
        · obtain rfl := Option.some.inj (found.symm.trans known)
          obtain ⟨after, there, was, passed⟩ := asked
          refine ⟨after, ?_, was, closed.closing.passed passed⟩
          rw [closed.closing.others _ here]
          exact there
        · have asked := closed.asked other member slot
            ((others closing other member).trans known) unreported
          rwa [closing.runsDead] at asked
    · intro error middle closing
      refine .tail ((inductionHypothesis distinct (still closing) _).consequence (fun _ => id)
        (fun final last closed => ?_) fun _ => id) rfl
      -- its error is still there at the end
      have reported : final[session]? ≠ none := by
        rw [closed.others session here, insert_get, if_pos rfl]
        exact nofun
      refine ⟨closing.cons here closed.closing, fun key apart => ?_, fun key none_ => ?_, ?_⟩
      · obtain ⟨first, later⟩ := not_or.mp (fun either => apart (List.mem_cons.mpr either))
        rw [closed.others key later, insert_get, if_neg (Ne.symm first)]
      · have before := closed.more key none_
        rw [insert_get] at before
        split at before
        · cases before
        · exact before
      · intro other member slot known unreported
        rcases List.mem_cons.mp member with rfl | member
        · exact absurd unreported reported
        · have asked := closed.asked other member slot
            ((others closing other member).trans known) unreported
          rwa [closing.runsDead] at asked

/-! ## Exactly the reviewed sessions -/

/-- Sorting tells the same texts from others. -/
theorem mergeSort_eq_iff {first second : List String} :
    first.mergeSort = second.mergeSort ↔ first.Perm second := by
  have sorted (texts : List String) : texts.mergeSort.Pairwise (· ≤ ·) := by
    simpa using @List.pairwise_mergeSort String (fun one other => decide (one ≤ other))
      (by simpa using fun _ _ _ => String.le_trans) (by simpa using String.le_total) texts
  constructor
  · intro same
    exact (List.mergeSort_perm first _).symm.trans (same ▸ List.mergeSort_perm second _)
  · intro perm
    refine List.Perm.eq_of_pairwise (fun _ _ _ _ => String.le_antisymm) (sorted first)
      (sorted second) ?_
    exact ((List.mergeSort_perm first _).trans perm).trans (List.mergeSort_perm second _).symm

/-- The sessions are those of the scope that are live, each once. -/
def Actor.Reviewed (actor : Actor) (project : Option String) (sessions : List String) : Prop :=
  sessions.Nodup ∧ ∀ session, session ∈ sessions ↔
    ∃ slot, actor.slots[session]? = some slot ∧ slot.targeted project = true

/-- No Git operation of the scope is active and none of its jobs is open. -/
structure Quiet (bridge : Git.Bridge) (project : Option String) : Prop where
  operations : ∀ (id : String) (operation : Git.Operation), bridge.operations[id]? = some operation →
    project.all (· == operation.info.projectId) = true → operation.active = false
  jobs : ∀ (id : String) (job : Git.Job), bridge.jobs[id]? = some job →
    project.all (· == job.project) = true → job.info.state.isOpen = false

theorem closeBlockers_empty {bridge : Git.Bridge} {project : Option String} :
    (bridge.closeBlockers project).isEmpty = true ↔
      ∀ (id : String) (operation : Git.Operation), bridge.operations[id]? = some operation →
        project.all (· == operation.info.projectId) = true → operation.active = false := by
  have first : (bridge.closeBlockers project).isEmpty = true ↔
      bridge.operations.toList.filter (fun entry =>
        entry.2.active && project.all (· == entry.2.info.projectId)) = [] := by
    simp [Git.Bridge.closeBlockers, List.isEmpty_iff, List.take_eq_nil_iff]
  rw [first, List.filter_eq_nil_iff]
  constructor
  · intro none_ id operation found scope
    have apart := none_ (id, operation) (Std.TreeMap.mem_toList_iff_getElem?_eq_some.mpr found)
    simpa [scope] using apart
  · rintro quiet ⟨id, operation⟩ listed
    have found := Std.TreeMap.mem_toList_iff_getElem?_eq_some.mp listed
    cases scope : project.all (· == operation.info.projectId) with
    | false => simp
    | true => simp [quiet id operation found scope]

theorem checkClose_iff {bridge : Git.Bridge} {project : Option String} :
    bridge.checkClose project = .ok () ↔ Quiet bridge project := by
  have open_ : (!bridge.jobs.toList.any fun entry =>
      entry.2.info.state.isOpen && project.all (· == entry.2.project)) = true ↔
      ∀ (id : String) (job : Git.Job), bridge.jobs[id]? = some job →
        project.all (· == job.project) = true → job.info.state.isOpen = false := by
    rw [Bool.not_eq_true', List.any_eq_false]
    constructor
    · intro none_ id job found scope
      have apart := none_ (id, job) (Std.TreeMap.mem_toList_iff_getElem?_eq_some.mpr found)
      simpa [scope] using apart
    · rintro quiet ⟨id, job⟩ listed
      have found := Std.TreeMap.mem_toList_iff_getElem?_eq_some.mp listed
      cases scope : project.all (· == job.project) with
      | false => simp
      | true => simp [quiet id job found scope]
  constructor
  · intro checked
    obtain ⟨_, operations, jobs⟩ := bind_eq_ok.mp checked
    exact ⟨closeBlockers_empty.mp (ensure_eq_ok.mp operations), open_.mp (ensure_eq_ok.mp jobs)⟩
  · intro quiet
    exact bind_eq_ok.mpr ⟨(), ensure_eq_ok.mpr (closeBlockers_empty.mpr quiet.operations),
      ensure_eq_ok.mpr (open_.mpr quiet.jobs)⟩

theorem targets_mem (keyed : ∀ (key : String) (slot : Slot), actor.slots[key]? = some slot →
    slot.info.sessionId = key) (project : Option String) (session : String) :
    session ∈ (actor.targets project).map (·.sessionId) ↔
      ∃ slot, actor.slots[session]? = some slot ∧ slot.targeted project = true := by
  simp only [targets, List.map_map, List.mem_map, List.mem_filter]
  constructor
  · rintro ⟨⟨key, slot⟩, ⟨listed, targeted⟩, rfl⟩
    have found := Std.TreeMap.mem_toList_iff_getElem?_eq_some.mp listed
    exact ⟨slot, (keyed key slot found).symm ▸ found, targeted⟩
  · rintro ⟨slot, found, targeted⟩
    exact ⟨(session, slot), ⟨Std.TreeMap.mem_toList_iff_getElem?_eq_some.mpr found, targeted⟩,
      keyed session slot found⟩

theorem targets_nodup (keyed : ∀ (key : String) (slot : Slot), actor.slots[key]? = some slot →
    slot.info.sessionId = key) (project : Option String) :
    ((actor.targets project).map (·.sessionId)).Nodup := by
  have keys : (actor.targets project).map (·.sessionId) =
      (actor.slots.toList.filter (·.2.targeted project)).map (·.1) := by
    simp only [targets, List.map_map]
    refine List.map_congr_left fun entry member => ?_
    exact keyed entry.1 entry.2
      (Std.TreeMap.mem_toList_iff_getElem?_eq_some.mp (List.mem_of_mem_filter member))
  rw [keys]
  exact List.pairwise_map.mpr ((toList_distinct actor.slots).sublist List.filter_sublist)

/-- The review that is accepted is the one of the live sessions. -/
theorem reviewed_iff (keyed : ∀ (key : String) (slot : Slot), actor.slots[key]? = some slot →
    slot.info.sessionId = key) (project : Option String) (sessions : List String) :
    ((actor.targets project).map (·.sessionId)).mergeSort = sessions.mergeSort ↔
      actor.Reviewed project sessions := by
  rw [mergeSort_eq_iff]
  constructor
  · intro perm
    refine ⟨perm.nodup_iff.mp (targets_nodup keyed project), fun session => ?_⟩
    rw [← perm.mem_iff]
    exact targets_mem keyed project session
  · rintro ⟨distinct, same⟩
    refine (List.perm_ext_iff_of_nodup (targets_nodup keyed project) distinct).mpr fun session => ?_
    rw [targets_mem keyed project session, same session]

/-! ### An accepted close -/

/-- Every session is reported, besides what there was. -/
theorem reported_get (sessions : List String) (error : String) (errors : BTreeMap String)
    (key : String) :
    (sessions.foldl (fun errors session => errors.insertIfNew session error) errors)[key]? = none ↔
      errors[key]? = none ∧ key ∉ sessions := by
  induction sessions generalizing errors with
  | nil => simp
  | cons session rest inductionHypothesis =>
    rw [List.foldl_cons, inductionHypothesis, List.mem_cons, not_or, ← and_assoc]
    refine and_congr_left fun _ => ?_
    simp only [Std.TreeMap.getElem?_insertIfNew, Std.TreeMap.mem_iff_isSome_getElem?]
    by_cases same : session = key
    · subst same
      cases known : errors[session]? <;> simp
    · simp [same, Ne.symm same]

theorem Closing.saved {sessions : List String} {before : Actor}
    (closing : Closing sessions before after) :
    Closing sessions before (after.record (.persisted after.ledger)) :=
  closing.recorded trivial

theorem Closing.unsaved {sessions : List String} {before : Actor}
    (closing : Closing sessions before after) (change : Slot → Slot) :
    Closing sessions before { after with
      slots := after.slots.map fun session slot =>
        if sessions.contains session then change slot else slot } := by
  refine { closing with others := fun key apart => ?_ }
  rw [Std.TreeMap.getElem?_map, ← closing.others key apart]
  simp [apart]

/-- What an accepted close has done. -/
structure Confirmed (actor : Actor) (project : Option String) (sessions : List String)
    (force : Bool) (reply : CloseReply) (last : Actor) : Prop where
  reviewed : actor.Reviewed project sessions
  quiet : Quiet actor.git project
  listed : reply.sessions.Perm sessions
  closing : Closing reply.sessions (actor.closing project) last
  shuttingDown : reply.shuttingDown = last.quiescing
  others : ∀ session, session ∉ reply.sessions → reply.errors[session]? = none
  asked : ∀ session ∈ reply.sessions, reply.errors[session]? = none →
    ∃ before after, actor.slots[session]? = some before ∧ last.slots[session]? = some after ∧
      before.Asked after force ∧ last.Passed session before actor.runsDead force

/-- A close is accepted for the sessions that were reviewed, and refused without a change for
    any others. -/
theorem closeMany_reviewed (keyed : ∀ (key : String) (slot : Slot),
    actor.slots[key]? = some slot → slot.info.sessionId = key) (project : Option String)
    (sessions : List String) (force : Bool) :
    Ensures answers (· = actor) (closeMany isUuid project sessions force)
      (Confirmed actor project sessions force)
      (fun last => last = actor ∧
        ¬ (actor.Reviewed project sessions ∧ Quiet actor.git project)) := by
  refine .thenRead (.thenCheckOr (fun error failed => ⟨rfl, fun both => ?_⟩) fun _ checked => ?_)
  · rw [checkClose_iff.mpr both.2] at failed
    cases failed
  have quiet := checkClose_iff.mp checked
  refine .thenCheckOr (fun error failed => ⟨rfl, fun both => ?_⟩) fun _ compared => ?_
  · have same := (reviewed_iff keyed project sessions).mpr both.1
    rw [(@ensure_eq_ok _ _ ()).mpr (beq_iff_eq.mpr same)] at failed
    cases failed
  have reviewed := (reviewed_iff keyed project sessions).mp
    (beq_iff_eq.mp (ensure_eq_ok.mp compared))
  have listed : ((actor.targets project).map (·.sessionId)).mergeSort.Perm sessions :=
    (beq_iff_eq.mp (ensure_eq_ok.mp compared)) ▸ List.mergeSort_perm sessions _
  generalize ((actor.targets project).map (·.sessionId)).mergeSort = expected at listed compared ⊢
  have live : ∀ session ∈ expected, ∃ slot, actor.slots[session]? = some slot ∧
      slot.isLive = true := by
    intro session member
    obtain ⟨slot, found, targeted⟩ := (reviewed.2 session).mp (listed.mem_iff.mp member)
    exact ⟨slot, found, (Bool.and_eq_true_iff.mp targeted).1⟩
  have each := @closeEach_ends answers (actor.closing project) force _
    (listed.nodup_iff.mpr reviewed.1) live ∅
  refine .thenUpdate (.thenCall (each.relax fun _ => False.elim) rfl fun errors last closed => ?_)
  refine .thenAttempt (persist_ends last) rfl ?_ ?_
  · rintro _ _ rfl
    have saved := closed.closing.saved
    refine .thenValue (.thenRead (.done ⟨reviewed, quiet, listed, saved, rfl,
      fun session apart => (closed.others session apart).trans (by simp), ?_⟩))
    intro session member unreported
    obtain ⟨before, found, -⟩ := live session member
    obtain ⟨after, there, asked, passed⟩ := closed.asked session member before found unreported
    exact ⟨before, after, found, there, asked, Actor.Passed.kept passed
      (List.subset_cons_self _ _) (List.Subset.refl _)⟩
  · rintro _ _ rfl
    have unsaved := closed.closing.saved.unsaved (·.withError unsavedClose)
    refine .thenUpdate (.thenValue (.thenRead (.done ⟨reviewed, quiet, listed, unsaved, rfl,
      fun session apart => ?_, fun session member unreported => ?_⟩)))
    · exact (reported_get _ _ _ _).mpr ⟨(closed.others session apart).trans (by simp), apart⟩
    · exact absurd member ((reported_get _ _ _ _).mp unreported).2

/-! ## A host that is shutting down -/

section Shutdown

variable {formats : Git.GitFormats} {scope : Scope} {origin : Actor}

theorem Slot.Step.running {session : String} {slot last : Slot} (closing : actor.quiescing = true)
    (step : Slot.Step isUuid scope actor session slot last)
    (running : last.info.state = .running) : slot.info.state = .running := by
  cases step with
  | noted | cancelAsked | bootstrapTaken | named | cancelConfirmed | retried | forgotten =>
    exact running
  | inventoried => exact (inventory_life _ _ _ _ _ _).state.symm.trans running
  | detached done => exact (detach_life done).state.symm.trans running
  | requested | uninitialized | unbootstrapped | placeholder => cases running
  | @unprepared cancelled error now =>
    have state := (forgetSaved_life _).state.symm.trans running
    cases cancelled <;> cases state
  | accepted =>
    -- what is still being prepared is only accepted to be closed
    simp [Slot.accepted, closing] at running
  | @unstarted cancelled run error now =>
    cases run <;> cases cancelled <;> cases running
  | exited =>
    unfold Slot.observeExit at running
    split at running
    · cases (cleanupNotice_life _ _).state.symm.trans running
    · exact running
  | reaped =>
    have state := (forgetSaved_life _).state.symm.trans running
    dsimp only at state
    split at state <;> cases state

theorem runsDied_running {slot : Slot} {now : Nat}
    (running : (slot.runsDied now).info.state = .running) : slot.info.state = .running := by
  unfold Slot.runsDied at running
  split at running
  · dsimp only at running
    split at running <;> exact running
  · split at running
    · cases running
    · exact running
  · split at running
    · cases running
    · exact running
  · exact running

theorem launchDied_running {slot : Slot} {now : Nat}
    (running : (slot.launchDied now).info.state = .running) : slot.info.state = .running := by
  unfold Slot.launchDied at running
  split at running
  · cases (forgetSaved_life _).state.symm.trans running
  · exact running

theorem Slot.Moved.running {session : String} {slot last : Slot} (closing : actor.quiescing = true)
    (moved : Slot.Moved isUuid scope actor session slot last)
    (running : last.info.state = .running) : slot.info.state = .running := by
  cases moved with
  | steps moves =>
    induction moves with
    | refl => exact running
    | tail _ step inductionHypothesis => exact inductionHypothesis (step.running closing running)
  | attached done => exact (attach_life done).state.symm.trans running
  | finishing | finishAnswered => exact running
  | runsDied => exact runsDied_running running
  | launchDied => exact launchDied_running running

/-- The work begins a run or opens an editor. -/
def Work.Opens : Work → Prop
  | .request _ (.start ..) _ _ | .request _ (.editorOpen _) _ _ => True
  | _ => False

/-- Nothing has been admitted. -/
structure Actor.Winding (before after : Actor) : Prop where
  quiescing : after.quiescing = true
  slots : ∀ (key : String) (slot : Slot), after.slots[key]? = some slot →
    ∃ was, before.slots[key]? = some was ∧
      (slot.info.state = .running → was.info.state = .running)
  launching : after.launching.jobs ⊆ before.launching.jobs
  working : ∀ work ∈ after.runs.working, work ∈ before.runs.working ∨ ¬ work.Opens
  git : Git.Within before.git.docket after.git

namespace Actor.Winding

variable {before third : Actor}

theorem refl (closing : actor.quiescing = true) : actor.Winding actor :=
  ⟨closing, fun _ slot found => ⟨slot, found, id⟩, List.Subset.refl _, fun _ => .inl, .refl _⟩

theorem trans (one : before.Winding after) (two : after.Winding third) :
    before.Winding third where
  quiescing := two.quiescing
  slots key slot found := by
    obtain ⟨middle, there, running⟩ := two.slots key slot found
    obtain ⟨was, known, before⟩ := one.slots key middle there
    exact ⟨was, known, fun now => before (running now)⟩
  launching := List.Subset.trans two.launching one.launching
  working work member :=
    (two.working work member).elim (one.working work) .inr
  git id operation found := by
    obtain ⟨middle, there, active⟩ := two.git id operation found
    obtain ⟨was, known, before⟩ := one.git id middle there
    exact ⟨was, known, fun now => before (active now)⟩

end Actor.Winding

theorem Actor.Gives.opens {work : Work} (gives : actor.Gives work) : ¬ work.Opens := by
  cases gives with
  | @request id cancel request kind other =>
    intro opens
    cases request with
    | start project task operation => exact kind _ _ _ rfl
    | editorOpen review => exact other _ rfl
    | _ => exact opens
  | cancel => exact id

/-- In a shutdown no change admits anything. -/
theorem Change.winding (closing : actor.quiescing = true)
    (change : Change isUuid scope actor after) : actor.Winding after := by
  have still := change.later.quiescing closing
  have refused {α : Sort _} (serving : actor.quiescing = false) : α := by
    rw [closing] at serving
    cases serving
  have slots : ∀ (key : String) (slot : Slot), after.slots[key]? = some slot →
      ∃ was, actor.slots[key]? = some was ∧
        (slot.info.state = .running → was.info.state = .running) := by
    intro key slot found
    rcases change.slot found with ⟨was, there, moved⟩ | born
    · exact ⟨was, there, moved.running closing⟩
    · cases born with
      | terminal starts => exact refused starts.serving
      | admitted admits => exact refused admits.serving
  have given {work : Work} (opens : ¬ work.Opens) :
      ∀ other ∈ actor.runs.working ++ [work], other ∈ actor.runs.working ∨ ¬ other.Opens := by
    intro other member
    refine (List.mem_append.mp member).imp_right fun new => ?_
    rwa [List.mem_singleton.mp new]
  cases change with
  | opening opening =>
    cases opening with
    | drew | saved | batched => exact ⟨still, slots, List.Subset.refl _, fun _ => .inl, .refl _⟩
    | started starts | startFailed starts => exact refused starts.serving
  | gave gives => exact ⟨still, slots, List.Subset.refl _, given gives.opens, .refl _⟩
  | finishSent => exact ⟨still, slots, List.Subset.refl _, given id, .refl _⟩
  | git within => exact ⟨still, slots, List.Subset.refl _, fun _ => .inl, within closing⟩
  | admitted admits | declined admits => exact refused admits.serving
  | runsMarked =>
    refine ⟨still, slots, List.Subset.refl _, fun work member => .inl ?_, .refl _⟩
    dsimp only [RunBridge.markDead] at member
    split at member <;> exact member
  | attached =>
    refine ⟨still, slots, ?_, fun work member => .inl ?_, ?_⟩
    · split <;> exact List.Subset.refl _
    · split at member <;> exact member
    · split <;> exact .refl _
  | slots | cells | signalled | leaderExited | leaderReaped | typed | jobs | finishHeard | eventTaken
  | runsDied | launchTaken | launchDied | scanned | reported | scanLost | closing | retired =>
    exact ⟨still, slots, List.Subset.refl _, fun _ => .inl, .refl _⟩

theorem winding_reached (closing : origin.quiescing = true)
    (reached : Reached isUuid scope origin actor) : origin.Winding actor := by
  induction reached with
  | refl => exact .refl closing
  | tail _ change inductionHypothesis =>
    exact inductionHypothesis.trans (change.winding inductionHypothesis.quiescing)

theorem World.Step.winding {world later : World} {event : HostEvent}
    (grounded : world.Grounded isUuid) (closing : world.actor.quiescing = true)
    (step : World.Step isUuid formats world event later) :
    world.actor.Winding later.actor := by
  cases inside : event.inside with
  | true =>
    exact winding_reached closing
      (@World.Step.reached _ _ _ _ _ True grounded (.inl trivial) inside step).1
  | false =>
    have outside := step.outside inside
    have slots : ∀ (key : String) (slot : Slot), later.actor.slots[key]? = some slot →
        ∃ was, world.actor.slots[key]? = some was ∧
          (slot.info.state = .running → was.info.state = .running) :=
      fun key slot found => ⟨slot, outside.slots ▸ found, id⟩
    have still := outside.quiescing.trans closing
    cases step with
    | requested | ticked => cases inside
    | launched next =>
      exact ⟨still, slots, next ▸ List.subset_cons_self _ _, fun _ => .inl, .refl _⟩
    | launchDied => exact ⟨still, slots, List.nil_subset _, fun _ => .inl, .refl _⟩
    | worked =>
      exact ⟨still, slots, List.Subset.refl _, fun _ member => .inl (List.mem_of_mem_erase member),
        .refl _⟩
    | runsDied =>
      exact ⟨still, slots, List.Subset.refl _, fun _ member => absurd member List.not_mem_nil,
        .refl _⟩
    | gitMoved beside =>
      refine ⟨still, slots, List.Subset.refl _, fun _ => .inl, fun id operation found => ?_⟩
      refine ⟨operation, ?_, fun active => active⟩
      rw [beside] at found
      exact found
    | began | timedOut | cellSet | scanned | scanDied =>
      exact ⟨still, slots, List.Subset.refl _, fun _ => .inl, .refl _⟩

/-- Nor does a whole run, at any of its steps. -/
theorem winding_run {first last : World} {trace : List HostEvent}
    (grounded : first.Grounded isUuid) (closing : first.actor.quiescing = true)
    (run : (hostSystem isUuid formats).Run first trace last) :
    last.Grounded isUuid ∧ first.actor.Winding last.actor := by
  induction run with
  | refl => exact ⟨grounded, .refl closing⟩
  | tail _ step inductionHypothesis =>
    obtain ⟨kept, winding⟩ := inductionHypothesis
    exact ⟨World.Step.grounded kept step, winding.trans (step.winding kept winding.quiescing)⟩

/-- An accepted shutdown closes the host to everything new. -/
theorem shutdown_quiescing {world later : World} {client : String} {sessions : List String}
    {force : Bool} {reply : Reply} (ground : Ground isUuid world.begun world.actor)
    (accepted : (execute isUuid formats client (.shutdown sessions force) answers 0
      world.actor).result = .ok reply)
    (step : World.Step isUuid formats world
      (.requested client (.shutdown sessions force) answers) later) :
    later.actor.quiescing = true := by
  cases step with
  | requested =>
    have ends : Ensures answers (· = world.actor)
        (execute isUuid formats client (.shutdown sessions force))
        (fun _ last => last.quiescing = true) (fun _ => True) := by
      refine .thenCall ((closeMany_reviewed (fun key slot found =>
        (ground.sound key slot found).sessionId) none sessions force).relax fun _ _ => trivial) rfl ?_
      exact fun reply last confirmed => .done (confirmed.closing.quiescing.trans
        (by simp [Actor.closing]))
    exact ends.returned rfl accepted

/-- A close is accepted for exactly the live sessions of its scope, and asks for the close of
    each; after an accepted shutdown no step admits anything. -/
theorem reviewed_close {world : World}
    (reachable : (hostSystem isUuid formats).Reachable world) :
    (∀ (answers : Nat → HostAnswers) (project : Option String) (sessions : List String)
      (force : Bool), Ensures answers (· = world.actor) (closeMany isUuid project sessions force)
        (Confirmed world.actor project sessions force)
        (fun last => last = world.actor ∧
          ¬ (world.actor.Reviewed project sessions ∧ Quiet world.actor.git project))) ∧
    ∀ (client : String) (sessions : List String) (force : Bool) (answers : Nat → HostAnswers)
      (reply : Reply) (later : World),
      (execute isUuid formats client (.shutdown sessions force) answers 0 world.actor).result =
        .ok reply →
      World.Step isUuid formats world (.requested client (.shutdown sessions force) answers)
        later →
      ∀ (trace : List HostEvent) (middle : World),
        (hostSystem isUuid formats).Run later trace middle →
        ∀ (event : HostEvent) (last : World), World.Step isUuid formats middle event last →
          middle.actor.Winding last.actor ∧
            ∀ ticks, event = .ticked ticks → middle.actor.attempts isUuid ticks = [] := by
  have kept : world.Grounded isUuid := grounded.reachable reachable
  refine ⟨fun answers project sessions force => ?_, ?_⟩
  · exact closeMany_reviewed (fun key slot found => (kept.ground.sound key slot found).sessionId)
      project sessions force
  · intro client sessions force answers reply later accepted shut trace middle run event last step
    have closing := shutdown_quiescing kept.ground accepted shut
    obtain ⟨still, winding⟩ := winding_run (World.Step.grounded kept shut) closing run
    exact ⟨step.winding still winding.quiescing, fun ticks _ => attempts_closing winding.quiescing ticks⟩

end Shutdown

/-- The host of the batch of one terminal is shut down. -/
def sampleShut : World where
  actor := sampleTicked.world.actor.after
    (execute sampleUuids Git.sampleFormats "client" (.shutdown ["aa"] false))
    fun _ => sampleHostAnswers 200
  begun := sampleTicked.world.begun

theorem returned_of_isSome {α : Type} {result : Result α} (some_ : result.toOption.isSome = true) :
    ∃ value, result = .ok value := by
  cases result with
  | ok value => exact ⟨value, rfl⟩
  | error error => cases some_

theorem reviewed_close_sample :
    (∃ reply last, Confirmed sampleTicked.world.actor none ["aa"] false reply last) ∧
      sampleShut.actor.Winding
        { sampleShut.actor with launching.jobs := [], launching.alive := false } := by
  obtain ⟨closes, admits⟩ := reviewed_close sampleTicked_host
  constructor
  · obtain ⟨reply, accepted⟩ := @returned_of_isSome _ (closeMany sampleUuids none ["aa"] false
      (fun _ => sampleHostAnswers 200) 0 sampleTicked.world.actor).result (by decide +kernel)
    exact ⟨reply, _, (closes _ none ["aa"] false).returned rfl accepted⟩
  · obtain ⟨reply, accepted⟩ := @returned_of_isSome _ (execute sampleUuids Git.sampleFormats
      "client" (.shutdown ["aa"] false) (fun _ => sampleHostAnswers 200) 0
      sampleTicked.world.actor).result (by decide +kernel)
    have shut : World.Step sampleUuids Git.sampleFormats sampleTicked.world _ sampleShut :=
      .requested (by decide +kernel) (sample_loads sampleTicked_ids 200) nofun
    exact (admits "client" ["aa"] false _ reply sampleShut accepted shut [] sampleShut (.refl _)
      .launchDied _ .launchDied).1

end Idk.Host
