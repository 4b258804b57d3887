import Idk.Gate.Custody
import Idk.Verified.Run.Snapshot

/-!
# What the operations of the registry can do

Every operation is a sequence of effects, each with the guard under which the
code performs it.  A change that stands only if it is stored is one effect, so
that the states between effects are the states in which a failed operation can
leave the registry.  `tickets` are the reserved starts still out with callers.

**Main results:** `removeHistory_takes` to `pinResult_takes`: one lemma for each
operation, by the rules of `Procedure.Takes`.
-/

namespace Idk

open Idk.Logic (Procedure)
open Idk.Logic.Procedure (Takes ReadOnly Atomic)
open RunRegistry
open Relation (ReflTransGen)

/-- Some ledger that was stored records the run. -/
def RecordedIn (durable : List RunLedger) (runId : String) : Prop :=
  ∃ ledger ∈ durable, ∃ run ∈ ledger.runs, run.runId = runId

/-- Some ledger that was stored records the run with confirmed cleanup. -/
def ConfirmedIn (durable : List RunLedger) (runId : String) : Prop :=
  ∃ ledger ∈ durable, ∃ run ∈ ledger.runs, run.runId = runId ∧ run.cleanupConfirmed = true

/-- The lease that a run's ticket holds while it is reserved and its active entry
    holds afterwards. -/
def custody (tickets : BTreeMap BeginTicket) (registry : RunRegistry) (runId : String) :
    Option GateLease :=
  match tickets[runId]? with
  | some ticket => ticket.lease
  | none => registry.active[runId]?.bind (·.lease)

/-- A ticket in the hands of an operation: no longer out, and its run not yet known. -/
structure Floating (tickets : BTreeMap BeginTicket) (registry : RunRegistry)
    (ticket : BeginTicket) : Prop where
  absent : tickets[ticket.runId]? = none
  inactive : registry.active[ticket.runId]? = none
  unseen : ∀ run ∈ registry.runs, run.runId ≠ ticket.runId
  unrecorded : ¬ RecordedIn registry.durable ticket.runId
  leased : ∀ lease, ticket.lease = some lease → registry.gate.Records lease ∧
    lease.mutation = false ∧ ∀ runId, custody tickets registry runId ≠ some lease

theorem Floating.withoutPending {tickets : BTreeMap BeginTicket} {registry : RunRegistry}
    {ticket : BeginTicket} (floating : Floating tickets registry ticket) :
    Floating tickets (registry.withoutPending ticket.runId) ticket :=
  { floating with }

/-- The cleanup journal is worked off. -/
inductive Cleaned (formats : Formats) : RunRegistry → RunRegistry → Prop where
  | intro {registry : RunRegistry} {entry : RetiredRun} {rest : List RetiredRun}
      {answers : Answers} (first : registry.retired = entry :: rest)
      (valid : (({ registry with retired := rest } : RunRegistry).ledger answers).validate formats =
        .ok ()) :
      Cleaned formats registry
        (stored (({ registry with retired := rest } : RunRegistry).ledger answers)
          { registry with retired := rest })

/-- A record goes to the cleanup journal. -/
inductive Retired (formats : Formats) : RunRegistry → RunRegistry → Prop where
  | intro {registry : RunRegistry} {index : Nat} {old : RunInfo} {entry : RetiredRun}
      {answers : Answers} (here : registry.runs[index]? = some old)
      (rotatable : registry.canRotate old = true) (room : registry.retired.length < historyLimit)
      (valid : ((retire index entry registry).ledger answers).validate formats = .ok ()) :
      Retired formats registry
        (forget old.runId (stored ((retire index entry registry).ledger answers)
          (retire index entry registry)))

def Retention (formats : Formats) (before after : RunRegistry) : Prop :=
  Cleaned formats before after ∨ Retired formats before after

/-- What a group of results allows the operations to do: in which states a run may be
    unpinned, a start reserved or committed, which unknown outcomes may be acknowledged, and
    which runs may end without confirmed cleanup. -/
structure May where
  unpin : RunRegistry → Prop := fun _ => True
  pend : RunRegistry → Prop := fun _ => True
  commit : RunRegistry → Prop := fun _ => True
  unconfirm : RunInfo → Prop := fun _ => True
  acknowledge : String → Prop := fun _ => True

/-- One effect, under the guard with which the code performs it. -/
inductive Effect (formats : Formats) (tickets : BTreeMap BeginTicket)
    (may : May) : RunRegistry → RunRegistry → Prop where
  | cleaned {registry next : RunRegistry} (step : Cleaned formats registry next) :
      Effect formats tickets may registry next
  | retired {registry next : RunRegistry} (step : Retired formats registry next) :
      Effect formats tickets may registry next
  | persisted {registry : RunRegistry} {answers : Answers}
      (valid : (registry.ledger answers).validate formats = .ok ()) :
      Effect formats tickets may registry (stored (registry.ledger answers) registry)
  | published {registry : RunRegistry} {identity : PathBuf}
      (clear : ∀ run ∈ registry.runs, unresolved run = true →
        run.sourceStart.identity ≠ some identity) :
      Effect formats tickets may registry { registry with gate := registry.gate.ready identity }
  | granted {registry : RunRegistry} {identity : PathBuf} {operation name : String}
      {gate : SourceGate} {lease : GateLease}
      (reserved : registry.gate.reserveRun identity operation name = .ok (gate, lease)) :
      Effect formats tickets may registry { registry with gate := gate }
  | pended {registry : RunRegistry} {pending : PendingStart} (room : registry.isFull = false)
      (allowed : may.pend registry) :
      Effect formats tickets may registry
        { registry with pendingStarts := registry.pendingStarts ++ [pending] }
  | unpended {registry : RunRegistry} {runId : String} (taken : tickets[runId]? = none) :
      Effect formats tickets may registry (withoutPending runId registry)
  | dropped {registry : RunRegistry} {ticket : BeginTicket}
      (floating : Floating tickets registry ticket) :
      Effect formats tickets may registry (released ticket.lease registry)
  | committed {registry : RunRegistry} {ticket : BeginTicket} {run : RunInfo} {entry : Active}
      {answers : Answers} (floating : Floating tickets registry ticket)
      (allowed : may.commit registry)
      (named : run.runId = ticket.runId)
      (starting : run.state = .preparing ∧ run.cleanupConfirmed = false ∧ run.pinned = false)
      (observed : run.sourceStart.identity = ticket.probeIdentity)
      (leased : entry.lease = ticket.lease ∧ entry.plan = ticket.plan)
      (valid : ((appended run registry).ledger answers).validate formats = .ok ()) :
      Effect formats tickets may registry (activate ticket.runId entry
        (stored ((appended run registry).ledger answers) (appended run registry)))
  | lived {registry : RunRegistry} {runId : String} {run : RunInfo} {change : RunInfo → RunInfo}
      (found : registry.find runId = some run) (live : run.state.isLive = true)
      (same : (change run).intent = run.intent ∧ (change run).pinned = run.pinned ∧
        (change run).cleanupConfirmed = run.cleanupConfirmed)
      (still : (change run).state.isLive = true) :
      Effect formats tickets may registry (revise runId change registry)
  | acknowledged {registry : RunRegistry} {runId : String} {run : RunInfo} {answers : Answers}
      (inactive : registry.active.contains runId = false) (allowed : may.acknowledge runId)
      (found : registry.find runId = some run) (lost : run.state = .unknown)
      (valid : ((revise runId (·.acknowledged) registry).ledger answers).validate formats =
        .ok ()) :
      Effect formats tickets may registry
        (stored ((revise runId (·.acknowledged) registry).ledger answers)
          (revise runId (·.acknowledged) registry))
  | ended {registry : RunRegistry} {runId : String} {active next : Active}
      (owned : registry.active[runId]? = some active)
      (same : next.lease = active.lease ∧ next.plan = active.plan)
      (finishing : next.finishing = true) :
      Effect formats tickets may registry (activate runId next registry)
  | concluded {registry : RunRegistry} {runId : String} {active : Active} {run : RunInfo}
      {change : RunInfo → RunInfo} (owned : registry.active[runId]? = some active)
      (finishing : active.finishing = true) (found : registry.find runId = some run)
      (same : (change run).intent = run.intent ∧ (change run).pinned = run.pinned)
      (stopped : (change run).state.isLive = false)
      (open_ : (change run).cleanupConfirmed = false → (change run).state = .unknown)
      (allowed : (change run).cleanupConfirmed = false → may.unconfirm run) :
      Effect formats tickets may registry (revise runId change registry)
  | settled {registry : RunRegistry} {runId : String} {cleanupConfirmed : Bool} {run : RunInfo}
      (found : registry.find runId = some run) (agrees : run.cleanupConfirmed = cleanupConfirmed)
      (durable : cleanupConfirmed = true → ConfirmedIn registry.durable runId) :
      Effect formats tickets may registry (settle runId cleanupConfirmed registry)
  | pinned {registry : RunRegistry} {runId : String} {pinned : Bool} {run : RunInfo}
      {answers : Answers} (found : registry.find runId = some run)
      (stopped : run.state.isLive = false) (confirmed : run.cleanupConfirmed = true)
      (toggles : run.pinned = !pinned)
      (room : if pinned then registry.runs.countP (·.pinned) < pinnedRunLimit
        else registry.isHistoryFull = false ∧ may.unpin registry)
      (valid : ((revise runId (·.withPin pinned) registry).ledger answers).validate
        formats = .ok ()) :
      Effect formats tickets may registry
        (stored ((revise runId (·.withPin pinned) registry).ledger answers)
          (revise runId (·.withPin pinned) registry))

variable {formats : Formats} {tickets : BTreeMap BeginTicket} {may : May}
  {answers : Nat → Answers}

/-! ## Writing -/

theorem persist_takes {pre : RunRegistry → Prop} :
    Takes answers (Effect formats tickets may) pre (persist formats)
      (fun _ registry => ∃ before answers, pre before ∧
        registry = stored (before.ledger answers) before) := by
  intro asked registry holds
  rcases persist_cases formats answers asked registry with ⟨error, failed⟩ | ⟨valid, _, written⟩
  · rw [failed]
    exact ⟨.refl, fun _ same => by cases same⟩
  · rw [written]
    exact ⟨.single (.persisted valid), fun _ _ => ⟨registry, _, holds, rfl⟩⟩

/-- A saved change takes effect as a whole. -/
theorem saving_takes {R : RunRegistry → RunRegistry → Prop} {pre : RunRegistry → Prop}
    {change undo after : RunRegistry → RunRegistry}
    (undoes : ∀ registry, pre registry → undo (change registry) = registry)
    (commits : ∀ registry answers, pre registry →
      ((change registry).ledger answers).validate formats = .ok () →
      ReflTransGen R registry (after (stored ((change registry).ledger answers) (change registry)))) :
    Takes answers R pre (saving formats change undo after)
      (fun _ registry => ∃ before answers, pre before ∧
        registry = after (stored ((change before).ledger answers) (change before))) := by
  intro asked registry holds
  rcases saving_cases formats after answers asked (undoes registry holds) with
    ⟨error, failed⟩ | ⟨valid, written⟩
  · rw [failed]
    exact ⟨.refl, fun _ same => by cases same⟩
  · rw [written]
    exact ⟨commits registry _ holds valid, fun _ _ => ⟨registry, _, holds, rfl⟩⟩

theorem forM_takes {R : RunRegistry → RunRegistry → Prop} {pre : RunRegistry → Prop} {α : Type}
    {body : α → Op Unit} (each : ∀ value, Takes answers R pre (body value) fun _ => pre)
    (list : List α) : Takes answers R pre (list.forM body) fun _ => pre := by
  induction list with
  | nil => exact (Takes.value ()).consequence fun _ _ holds => holds.2
  | cons head rest inductionHypothesis => exact (each head).bind fun _ => inductionHypothesis

/-! ## Retention -/

theorem Retention.effect {before after : RunRegistry} (step : Retention formats before after) :
    Effect formats tickets may before after := by
  rcases step with cleaned | retired
  · exact .cleaned cleaned
  · exact .retired retired

theorem cleanupFirst_takes {retired : RetiredRun} {rest : List RetiredRun} :
    Takes answers (Cleaned formats) (fun registry => registry.retired = retired :: rest)
      (cleanupFirst formats retired) (fun _ registry => registry.retired = rest) := by
  refine ReadOnly.answer.takes.bind fun _ => ?_
  refine (ReadOnly.lift _).takes.bind fun _ => ?_
  refine (ReadOnly.lift _).takes.bind fun _ => ?_
  refine (ReadOnly.lift _).takes.bind fun _ => ?_
  refine (ReadOnly.lift _).takes.bind fun _ => ?_
  refine (saving_takes ?_ ?_).consequence ?_
  · intro registry first
    simp only [first, List.tail_cons]
    rw [← first]
  · intro registry answers first valid
    simp only [first, List.tail_cons] at valid ⊢
    exact .single (.intro first valid)
  · rintro _ _ ⟨before, _, first, rfl⟩
    simp [stored, first]

theorem cleanupRounds_takes (list : List RetiredRun) :
    Takes answers (Cleaned formats) (fun registry => registry.retired = list)
      (list.forM (cleanupFirst formats)) (fun _ registry => registry.retired = []) := by
  induction list with
  | nil => exact (Takes.value ()).consequence fun _ _ done => done.2
  | cons retired rest inductionHypothesis =>
    exact cleanupFirst_takes.bind fun _ => inductionHypothesis

theorem cleanupRetired_takes (pre : RunRegistry → Prop) :
    Takes answers (Cleaned formats) pre (cleanupRetired formats)
      (fun _ registry => registry.retired = []) := by
  refine Takes.current.bind fun registry => ?_
  exact (cleanupRounds_takes registry.retired).strengthen fun _ same => by rw [same.1]

/-- Cleaning leaves everything but the journal and the disk alone. -/
theorem Cleaned.frame {before after : RunRegistry} (step : Cleaned formats before after) :
    after.runs = before.runs ∧ after.active = before.active ∧ after.gate = before.gate ∧
      after.pendingStarts = before.pendingStarts := by
  cases step
  exact ⟨rfl, rfl, rfl, rfl⟩

/-- Putting an erased element back where it was. -/
theorem insertIdx_eraseIdx_same {α : Type} {list : List α} {index : Nat} {value : α}
    (here : list[index]? = some value) : (list.eraseIdx index).insertIdx index value = list := by
  induction list generalizing index with
  | nil => simp at here
  | cons head rest inductionHypothesis =>
    cases index with
    | zero => simpa using here.symm
    | succ index => simpa using inductionHypothesis (by simpa using here)

theorem Retention.pending {before after : RunRegistry} (step : Retention formats before after) :
    after.pendingStarts = before.pendingStarts := by
  rcases step with cleaned | retired
  · exact cleaned.frame.2.2.2
  · cases retired
    rfl

/-- A removed record is gone. -/
theorem removeHistory_takes {index : Nat} (count : Nat) :
    Takes answers (Retention formats) (fun registry => registry.runs.length = count)
      (removeHistory formats index) (fun _ registry => registry.runs.length < count) := by
  refine Takes.current.bind fun registry => ?_
  refine (Takes.lift _).bind fun old => ?_
  refine (Takes.lift _).bind fun _ => ?_
  refine (Takes.lift _).bind fun _ => ?_
  refine ReadOnly.answer.takes.bind fun _ => ?_
  refine (ReadOnly.lift _).takes.bind fun identity => ?_
  refine (saving_takes ?_ ?_).bind fun _ => ?_
  · rintro state ⟨_, _, found, rfl, _⟩
    have here := context_eq_ok.mp found
    simp only [retire, unretire, List.dropLast_concat]
    rw [insertIdx_eraseIdx_same here]
  · rintro state answers ⟨room, rotatable, found, rfl, _⟩ valid
    exact .single (.inr (.intro (context_eq_ok.mp found) (ensure_eq_ok.mp rotatable)
      (by simpa using ensure_eq_ok.mp room) valid))
  · have cleaned : Takes answers (Cleaned formats) (fun _ => True) (cleanupRetired formats) _ :=
      cleanupRetired_takes _
    have framed := cleaned.frame (fun state => state.runs.length < count)
      fun before after kept step => by
        rw [step.frame.1]
        exact kept
    refine (framed.mono fun _ _ => .inl).weaken ?_ fun _ _ kept => kept.2
    rintro state ⟨before, _, ⟨_, _, found, rfl, sized⟩, rfl⟩
    obtain ⟨bound, _⟩ := List.getElem?_eq_some_iff.mp (context_eq_ok.mp found)
    refine ⟨trivial, ?_⟩
    simp only [forget, released, stored, retire, List.length_eraseIdx_of_lt bound]
    omega

theorem expireFirst_takes :
    Takes answers (Retention formats) (fun _ => True) (expireFirst formats) (fun _ _ => True) := by
  refine ReadOnly.answer.takes.bind fun _ => ?_
  refine ReadOnly.current.takes.bind fun registry => ?_
  split
  · exact (Takes.value _).consequence fun _ _ _ => trivial
  · intro asked state _
    exact ((removeHistory_takes state.runs.length).bind fun _ =>
      (Takes.value _).consequence fun _ _ _ => trivial) asked state rfl

theorem expireHistory_takes :
    Takes answers (Retention formats) (fun _ => True) (expireHistory formats) (fun _ _ => True) :=
  ReadOnly.current.takes.bind fun _ => Takes.iterate expireFirst_takes _

theorem rotateFirst_takes {full : RunRegistry → Bool} {message : String} (count : Nat) :
    Takes answers (Retention formats) (fun registry => True ∧ registry.runs.length = count)
      (rotateFirst formats full message)
      (fun again registry => True ∧ (again = true → registry.runs.length < count) ∧
        (again = false → full registry = false)) := by
  refine Takes.current.bind fun registry => ?_
  by_cases condition : full registry = true
  · rw [if_pos condition]
    refine (ReadOnly.lift _).takes.bind fun index => ?_
    refine ((removeHistory_takes count).strengthen fun _ holds => holds.2.2).bind fun _ => ?_
    exact (Takes.value _).consequence fun _ _ kept =>
      ⟨trivial, fun _ => kept.2, fun stop => by simp [kept.1] at stop⟩
  · rw [if_neg condition]
    refine (Takes.value _).consequence ?_
    rintro _ state ⟨rfl, rfl, _⟩
    exact ⟨trivial, nofun, fun _ => by simpa using condition⟩

/-- A rotation loop that returns has made room, and has as many rounds as it needs. -/
theorem rotateWhile_takes {full : RunRegistry → Bool} {message : String} :
    Takes answers (Retention formats) (fun _ => True) (rotateWhile formats full message)
      (fun _ registry => full registry = false) := by
  refine Takes.current.bind fun registry => ?_
  refine (Takes.iterate_stops (fun registry => registry.runs.length) rotateFirst_takes _).weaken
    ?_ fun _ _ stopped => stopped.2
  rintro state ⟨rfl, _⟩
  exact ⟨trivial, Nat.lt_succ_self _⟩

/-! ## Source readiness -/

theorem publishSource_takes (pre : RunRegistry → Prop) {identity : PathBuf} :
    Takes answers (Effect formats tickets may) pre (publishSource identity)
      (fun _ registry => ∃ before, pre before ∧
        registry = { before with gate := before.gate.ready identity }) := by
  refine Takes.current.bind fun registry => ?_
  refine (Takes.lift _).bind fun _ => ?_
  refine (Takes.update ?_).consequence ?_
  · rintro state ⟨checked, rfl, _⟩
    refine .published fun run member lost same => ?_
    have clear := ensure_eq_ok.mp checked
    simp only [Bool.not_eq_true', List.any_eq_false, Bool.and_eq_true, not_and] at clear
    exact clear run member lost (by simp [same])
  · rintro _ _ ⟨before, ⟨_, _, holds⟩, rfl⟩
    exact ⟨before, holds, rfl⟩

theorem publishRegisteredSources_takes :
    Takes answers (Effect formats tickets may) (fun _ => True) publishRegisteredSources
      (fun _ _ => True) := by
  refine ReadOnly.answer.takes.bind fun _ => ?_
  refine (ReadOnly.lift _).takes.bind fun projects => ?_
  refine forM_takes (fun repository => ?_) _
  refine ((publishSource_takes _).attempt (fun _ => True) fun _ _ _ _ _ => trivial).bind fun _ => ?_
  exact (Takes.value _).consequence fun _ _ _ => trivial

/-! ## Marking, cancelling and reconciling -/

theorem infoOf_readOnly (runId : String) : ReadOnly (infoOf runId) :=
  ReadOnly.current.bind fun _ => ReadOnly.answer.bind fun _ => ReadOnly.lift _

theorem runMut_takes {R : RunRegistry → RunRegistry → Prop} {pre : RunRegistry → Prop}
    {runId : String} :
    Takes answers R pre (runMut runId)
      (fun run registry => registry.find runId = some run ∧ pre registry) := by
  refine Takes.current.bind fun registry => ?_
  refine (Takes.lift _).consequence ?_
  rintro run state ⟨found, rfl, holds⟩
  exact ⟨context_eq_ok.mp found, holds⟩

theorem markRunning_takes {runId sessionId : String} :
    Takes answers (Effect formats tickets may) (fun _ => True) (markRunning formats runId sessionId)
      (fun _ _ => True) := by
  refine (ReadOnly.lift _).takes.bind fun _ => ?_
  refine runMut_takes.bind fun run => ?_
  refine (Takes.lift _).bind fun _ => ?_
  refine (Takes.update ?_).bind fun _ => persist_takes.consequence fun _ _ _ => trivial
  rintro state ⟨live, found, _⟩
  have running := ensure_eq_ok.mp live
  refine .lived found running ⟨rfl, rfl, rfl⟩ ?_
  unfold RunInfo.marked
  split
  · rfl
  · exact running

theorem cancel_takes {runId : String} {timeout : Bool} :
    Takes answers (Effect formats tickets may) (fun _ => True) (cancel formats runId timeout)
      (fun _ _ => True) := by
  refine ReadOnly.current.takes.bind fun registry => ?_
  refine (ReadOnly.lift _).takes.bind fun _ => ?_
  refine runMut_takes.bind fun previous => ?_
  refine (Takes.lift _).bind fun _ => ?_
  refine (saving_takes ?_ ?_).bind fun _ =>
    (infoOf_readOnly runId).takes.consequence fun _ _ _ => trivial
  · rintro state ⟨_, found, _⟩
    exact revise_revise found (find_runId found).2 rfl
  · rintro state answers ⟨live, found, _⟩ valid
    have running := ensure_eq_ok.mp live
    exact .tail (.single (.lived found running ⟨rfl, rfl, rfl⟩ rfl)) (.persisted valid)

theorem acknowledge_takes {runId : String} (allowed : may.acknowledge runId) :
    Takes answers (Effect formats tickets may) (fun _ => True)
      (acknowledgeUnknownCleanup formats runId) (fun _ _ => True) := by
  refine Takes.current.bind fun registry => ?_
  refine (Takes.lift _).bind fun _ => ?_
  refine runMut_takes.bind fun previous => ?_
  refine (Takes.lift _).bind fun _ => ?_
  refine (saving_takes ?_ ?_).bind fun _ =>
    (infoOf_readOnly runId).takes.consequence fun _ _ _ => trivial
  · rintro state ⟨_, found, _⟩
    exact revise_revise found (find_runId found).2 rfl
  · rintro state answers ⟨lost, found, unowned, rfl, _⟩ valid
    exact .single (.acknowledged (by simpa using ensure_eq_ok.mp unowned) allowed found
      (by simpa using ensure_eq_ok.mp lost) valid)

/-! ## Finishing -/

theorem finishProbe_takes {runId : String} :
    Takes answers (Effect formats tickets may) (fun _ => True) (finishProbe runId)
      (fun _ _ => True) := by
  refine Takes.current.bind fun registry => ?_
  refine (Takes.lift _).bind fun active => ?_
  refine (Takes.update ?_).bind fun _ => (Takes.value _).consequence fun _ _ _ => trivial
  rintro state ⟨owned, rfl, _⟩
  exact .ended (context_eq_ok.mp owned) ⟨rfl, rfl⟩ rfl

theorem captured_same {answers : Answers} {runId : String} {cleanupConfirmed : Bool}
    (active : Active) : (active.captured answers runId cleanupConfirmed).lease = active.lease ∧
      (active.captured answers runId cleanupConfirmed).plan = active.plan := by
  unfold Active.captured
  split <;> exact ⟨rfl, rfl⟩

theorem finalState_over {run : RunInfo} {exit : Option TerminalExit} {cleanupConfirmed : Bool}
    {error : Option String} : (run.finalState exit cleanupConfirmed error).isLive = false := by
  unfold RunInfo.finalState
  repeat' split
  all_goals rfl

/-- Once the revised record is stored, its outcome may be acted on. -/
theorem settled_after {registry : RunRegistry} {runId : String} {change : RunInfo → RunInfo}
    {run : RunInfo} {cleanupConfirmed : Bool} {answers : Answers}
    (found : registry.find runId = some run) (kept : (change run).runId = run.runId)
    (agrees : (change run).cleanupConfirmed = cleanupConfirmed) :
    Effect formats tickets may (stored ((revise runId change registry).ledger answers)
      (revise runId change registry))
      (settle runId cleanupConfirmed (stored ((revise runId change registry).ledger answers)
        (revise runId change registry))) := by
  have revised := find_revise found kept
  refine .settled revised agrees fun confirmed => ?_
  obtain ⟨entry, listed, same⟩ := list_find revised
  refine ⟨_, List.mem_cons_self, entry, listed, ?_, ?_⟩
  · rw [core_runId same, kept]
    exact (find_runId found).2
  · rw [core_confirmed same, agrees]
    exact confirmed

theorem finishObserved_takes {runId : String} {ending : RunEnd} :
    Takes answers (Effect formats tickets may)
      (fun registry => ∀ run, registry.find runId = some run → ending.cleanupConfirmed = false →
        may.unconfirm run)
      (finishObserved formats runId ending) (fun _ _ => True) := by
  refine Takes.current.bind fun registry => ?_
  refine (Takes.lift _).bind fun active => ?_
  refine ReadOnly.answer.takes.bind fun answer => ?_
  refine (Takes.update ?_).bind fun _ => ?_
  · rintro state ⟨owned, rfl, _⟩
    exact .ended (context_eq_ok.mp owned) (captured_same active) rfl
  -- From here on the entry is one that is finishing.
  refine Takes.under (fun state => (∃ active, state.active[runId]? = some active ∧
    active.finishing = true) ∧ ∀ run, state.find runId = some run →
      ending.cleanupConfirmed = false → may.unconfirm run) ?_ ?_
  · rintro state ⟨before, ⟨_, _, allowed⟩, rfl⟩
    exact ⟨⟨_, Std.TreeMap.getElem?_insert_self, rfl⟩, allowed⟩
  · refine (infoOf_readOnly runId).takes.bind fun known => ?_
    refine ReadOnly.current.takes.bind fun registry => ?_
    refine runMut_takes.bind fun run => ?_
    refine (Takes.update ?_).bind fun _ => persist_takes.bind fun _ => (Takes.update ?_).bind fun _ =>
      (infoOf_readOnly runId).takes.consequence fun _ _ _ => trivial
    · rintro state ⟨found, ⟨active, owned, finishing⟩, allowed⟩
      refine .concluded owned finishing found ⟨rfl, rfl⟩ finalState_over ?_ (allowed run found)
      intro unconfirmed
      simp only [RunInfo.finished] at unconfirmed ⊢
      simp [RunInfo.finalState, unconfirmed]
    · rintro _ ⟨_, answers, ⟨before, ⟨found, _⟩, rfl⟩, rfl⟩
      refine settled_after found rfl rfl

/-! ## Pinning -/

theorem find?_eraseIdx {α : Type} {test : α → Bool} {list : List α} {index : Nat} {value first : α}
    (found : list.find? test = some first) (here : list[index]? = some value)
    (other : value ≠ first) : (list.eraseIdx index).find? test = some first := by
  induction list generalizing index with
  | nil => cases found
  | cons head rest inductionHypothesis =>
    by_cases hit : test head = true
    · rw [List.find?_cons_of_pos hit, Option.some.injEq] at found
      subst found
      cases index with
      | zero => exact absurd (by simpa using here.symm) other
      | succ index => rw [List.eraseIdx_cons_succ, List.find?_cons_of_pos hit]
    · rw [List.find?_cons_of_neg hit] at found
      cases index with
      | zero => exact found
      | succ index =>
        rw [List.eraseIdx_cons_succ, List.find?_cons_of_neg hit]
        exact inductionHypothesis found (by simpa using here)

/-- Retention never takes a pinned record. -/
theorem Retention.find_pinned {before after : RunRegistry} (step : Retention formats before after)
    {runId : String} {run : RunInfo} (found : before.find runId = some run)
    (kept : run.pinned = true) : after.find runId = some run := by
  rcases step with cleaned | retired
  · rw [find, cleaned.frame.1]
    exact found
  · cases retired with
    | intro here rotatable =>
      apply find?_eraseIdx found here
      intro same
      subst same
      simp [canRotate, kept] at rotatable

theorem checkPin_takes {run : RunInfo} {pre : RunRegistry → Prop} :
    Takes answers (Effect formats tickets may) pre (checkPin run)
      (fun _ registry => pre registry ∧ registry.runs.countP (·.pinned) < pinnedRunLimit) := by
  refine ReadOnly.answer.takes.bind fun _ => ?_
  refine (ReadOnly.lift _).takes.bind fun _ => ?_
  refine (ReadOnly.lift _).takes.bind fun _ => ?_
  refine Takes.current.bind fun registry => ?_
  refine (Takes.lift _).bind fun _ => ?_
  refine (ReadOnly.lift _).takes.consequence ?_
  rintro _ state ⟨room, rfl, holds⟩
  exact ⟨holds, by simpa [List.countP_eq_length_filter] using ensure_eq_ok.mp room⟩

theorem infoOf_takes {R : RunRegistry → RunRegistry → Prop} {pre : RunRegistry → Prop}
    {runId : String} :
    Takes answers R pre (infoOf runId)
      (fun known registry => (∃ run, registry.find runId = some run ∧ known.core = run.core) ∧
        pre registry) := by
  refine Takes.current.bind fun registry => ?_
  refine ReadOnly.answer.takes.bind fun _ => ?_
  refine (Takes.lift _).consequence ?_
  rintro known state ⟨seen, rfl, holds⟩
  exact ⟨info_core seen, holds⟩

/-- A run about to change its pin: found as it is known, and there is room for it. -/
structure Pinnable (may : May) (known : RunInfo) (runId : String)
    (pinned : Bool) (registry : RunRegistry) : Prop where
  found : ∃ run, registry.find runId = some run ∧ known.core = run.core
  room : if pinned then registry.runs.countP (·.pinned) < pinnedRunLimit
    else registry.isHistoryFull = false ∧ may.unpin registry

theorem admitPin_takes {known : RunInfo} {runId : String} {pinned : Bool}
    (calm : RunRegistry → Prop)
    (kept : ∀ before after, calm before → Retention formats before after → calm after)
    (calms : pinned = false → ∀ registry run, calm registry →
      registry.find runId = some run → run.pinned = true → registry.isHistoryFull = false →
      may.unpin registry) (toggles : known.pinned = !pinned) :
    Takes answers (Effect formats tickets may)
      (fun registry => (∃ run, registry.find runId = some run ∧ known.core = run.core) ∧
        calm registry)
      (admitPin formats known pinned) (fun _ => Pinnable may known runId pinned) := by
  cases pinned with
  | true =>
    refine checkPin_takes.consequence ?_
    rintro _ registry ⟨⟨found, _⟩, room⟩
    exact ⟨found, room⟩
  | false =>
    have making : Takes answers (Retention formats) _ (admitPin formats known false) _ :=
      rotateWhile_takes
    have rotated := making.frame
      (fun state => (∃ run, state.find runId = some run ∧ known.core = run.core) ∧ calm state)
      fun before after holds step => by
        obtain ⟨⟨run, found, same⟩, calmed⟩ := holds
        have pinned : run.pinned = true := (core_pinned same).symm.trans toggles
        exact ⟨⟨run, step.find_pinned found pinned, same⟩, kept before after calmed step⟩
    refine (rotated.mono fun _ _ => Retention.effect).weaken (fun _ holds => ⟨trivial, holds⟩) ?_
    rintro _ state ⟨room, ⟨run, found, same⟩, calmed⟩
    have pinned : run.pinned = true := (core_pinned same).symm.trans toggles
    exact ⟨⟨run, found, same⟩, room, calms rfl state run calmed found pinned room⟩

theorem pinResult_takes {runId : String} {pinned : Bool} (calm : RunRegistry → Prop)
    (kept : ∀ before after, calm before → Retention formats before after → calm after)
    (calms : pinned = false → ∀ registry run, calm registry →
      registry.find runId = some run → run.pinned = true → registry.isHistoryFull = false →
      may.unpin registry) :
    Takes answers (Effect formats tickets may) calm (pinResult formats runId pinned)
      (fun _ _ => True) := by
  refine infoOf_takes.bind fun known => ?_
  refine (Takes.lift _).bind fun _ => ?_
  refine Takes.branch (fun _ => (Takes.value _).consequence fun _ _ _ => trivial) fun differs => ?_
  have toggles : known.pinned = !pinned := by
    cases pinned <;> simpa using differs
  refine Takes.given (known.state.isLive = false ∧ known.cleanupConfirmed = true) ?_ fun checked => ?_
  · rintro _ ⟨settled, _⟩
    simpa using ensure_eq_ok.mp settled
  refine ((admitPin_takes calm kept calms toggles).strengthen fun _ holds => holds.2).bind fun _ => ?_
  refine runMut_takes.bind fun run => (saving_takes ?_ ?_).bind fun _ =>
    (infoOf_readOnly runId).takes.consequence fun _ _ _ => trivial
  · rintro state ⟨here, ⟨other, again, same⟩, _⟩
    have agree : run = other := Option.some.inj (here.symm.trans again)
    subst agree
    exact revise_revise here (find_runId here).2 (by rw [core_pinned same]; rfl)
  · rintro state answers ⟨here, ⟨other, again, same⟩, room⟩ valid
    have agree : run = other := Option.some.inj (here.symm.trans again)
    subst agree
    have stopped : run.state.isLive = false := by rw [← core_state same, checked.1]
    have confirmed : run.cleanupConfirmed = true := by rw [← core_confirmed same, checked.2]
    exact .single (.pinned here stopped confirmed (by rw [← core_pinned same, toggles]) room valid)

/-! ## Starting -/

/-- A ticket holds a lease exactly when its plan has a repository, and on it. -/
def BeginTicket.Leased (ticket : BeginTicket) : Prop :=
  ticket.lease.map (·.identity) = ticket.probeIdentity ∧
    ∀ lease, ticket.lease = some lease → lease.mutation = false

/-- The end of a reservation: the lease is granted and the start is pending. -/
structure Reserving (before after : RunRegistry) (ticket : BeginTicket) : Prop where
  room : before.isFull = false
  leased : ticket.Leased
  granted : match ticket.lease with
    | none => after.gate = before.gate
    | some lease => ∃ name, before.gate.reserveRun lease.identity ticket.operationId name =
        .ok (after.gate, lease)
  pending : after.pendingStarts = before.pendingStarts ++
    [{ runId := ticket.runId, projectId := ticket.plan.projectId, taskId := ticket.plan.task.id,
       operationId := ticket.operationId, buildOutputs := ticket.outputs }]
  runs : after.runs = before.runs
  retired : after.retired = before.retired
  active : after.active = before.active
  durable : after.durable = before.durable

theorem takeLease_takes {plan : TaskLaunchPlan} {operationId : String}
    (inv : RunRegistry → Prop)
    (kept : ∀ before after, inv before → Effect formats tickets may before after → inv after) :
    Takes answers (Effect formats tickets may)
      (fun registry => registry.isFull = false ∧ inv registry)
      (takeLease plan operationId)
      (fun lease registry => ∃ before gate, inv before ∧ before.isFull = false ∧
        registry = { before with gate := gate } ∧
        lease.map (·.identity) = plan.repository.map (·.identity) ∧
        match lease with
        | none => gate = before.gate
        | some lease => lease.mutation = false ∧ ∃ name,
            before.gate.reserveRun lease.identity operationId name = .ok (gate, lease)) := by
  unfold takeLease
  cases owned : plan.repository with
  | none =>
    refine (Takes.value none).consequence ?_
    rintro _ registry ⟨rfl, room, holds⟩
    exact ⟨registry, registry.gate, holds, room, rfl, rfl, rfl⟩
  | some repository =>
    refine ReadOnly.answer.takes.bind fun _ => ?_
    refine (ReadOnly.lift _).takes.bind fun _ => ?_
    refine ((publishSource_takes fun registry => registry.isFull = false).frame inv kept).bind
      fun _ => ?_
    refine Takes.current.bind fun registry => ?_
    refine (Takes.lift _).bind fun granted => ?_
    obtain ⟨gate, lease⟩ := granted
    refine (Takes.update ?_).bind fun _ => (Takes.value _).consequence ?_
    · rintro state ⟨reserved, rfl, _⟩
      exact .granted reserved
    · rintro _ _ ⟨rfl, before, ⟨reserved, rfl, ⟨published, room, rfl⟩, holds⟩, rfl⟩
      have named := SourceGate.reserve_identity reserved
      refine ⟨_, gate, holds, room, rfl, by simp [named.1], named.2.2, plan.task.name, ?_⟩
      rw [named.1]
      exact reserved

theorem takeStart_takes {plan : TaskLaunchPlan} {operationId : String} {outputs : List PathBuf}
    (pends : ∀ registry, may.pend registry) (inv : RunRegistry → Prop)
    (kept : ∀ before after, inv before → Effect formats tickets may before after → inv after) :
    Takes answers (Effect formats tickets may)
      (fun registry => registry.isFull = false ∧ inv registry)
      (takeStart plan operationId outputs)
      (fun reservation registry => ∃ ticket before, reservation = .fresh ticket ∧
        (∃ asked, ticket.runId = (answers asked).newId) ∧ ticket.plan = plan ∧
        ticket.outputs = outputs ∧ ticket.operationId = operationId ∧ inv before ∧
        Reserving before registry ticket) := by
  refine Takes.answer.bind fun answer => ?_
  refine Takes.given (∃ asked, answer = answers asked) (fun _ holds => holds.1) fun fresh => ?_
  refine ((takeLease_takes inv kept).strengthen fun _ holds => holds.2).bind fun lease => ?_
  refine (Takes.update ?_).bind fun _ => (Takes.value _).consequence ?_
  · rintro _ ⟨before, gate, _, room, rfl, _⟩
    exact .pended room (pends _)
  · rintro _ _ ⟨rfl, _, ⟨before, gate, holds, room, rfl, same, granted⟩, rfl⟩
    obtain ⟨asked, rfl⟩ := fresh
    refine ⟨_, before, rfl, ⟨asked, rfl⟩, rfl, rfl, rfl, holds, ?_⟩
    cases lease with
    | none =>
      exact ⟨room, ⟨same, nofun⟩, granted, rfl, rfl, rfl, rfl, rfl⟩
    | some lease =>
      refine ⟨room, ⟨same, ?_⟩, granted.2, rfl, rfl, rfl, rfl, rfl⟩
      rintro _ ⟨⟩
      exact granted.1

/-- What `begin_reserve` has checked of the registry it started from. -/
structure Admitted (start : RunRegistry) (plan : TaskLaunchPlan) (outputs : List PathBuf) :
    Prop where
  resolved : ∀ run ∈ start.runs, unresolved run = true →
    ¬ (run.projectId = plan.projectId ∧ run.taskId = plan.task.id)
  runsApart : ∀ run ∈ start.runs, run.state.isLive = true ∨ unresolved run = true →
    overlaps outputs run.buildOutputs = false
  pendingApart : ∀ pending ∈ start.pendingStarts, overlaps outputs pending.buildOutputs = false

theorem admitStart_takes {plan : TaskLaunchPlan} {operationId : String} {parallel : Bool}
    (pends : ∀ registry, may.pend registry) (start : RunRegistry) (inv : RunRegistry → Prop)
    (kept : ∀ before after, inv before → Effect formats tickets may before after → inv after) :
    Takes answers (Effect formats tickets may) (fun registry => registry = start ∧ inv registry)
      (admitStart formats plan operationId parallel)
      (fun reservation registry => ∃ ticket before, reservation = .fresh ticket ∧
        (∃ asked, ticket.runId = (answers asked).newId) ∧ ticket.plan = plan ∧
        Admitted start plan ticket.outputs ∧ inv before ∧ Reserving before registry ticket) := by
  refine Takes.current.bind fun registry => ?_
  refine Takes.given (registry = start) (fun _ holds => holds.1.trans holds.2.1) fun same => ?_
  subst same
  refine (ReadOnly.lift _).takes.bind fun _ => ?_
  refine (Takes.lift _).bind fun _ => ?_
  refine ReadOnly.answer.takes.bind fun answer => ?_
  refine (ReadOnly.lift _).takes.bind fun outputs => ?_
  refine (Takes.lift _).bind fun _ => ?_
  refine (Takes.lift _).bind fun _ => ?_
  refine Takes.given (Admitted registry plan outputs) ?_ fun admitted => ?_
  · rintro _ ⟨pendingApart, runsApart, resolved, _⟩
    have none_pending := ensure_eq_ok.mp pendingApart
    have none_run := ensure_eq_ok.mp runsApart
    have none_lost := ensure_eq_ok.mp resolved
    simp only [Bool.not_eq_true', List.any_eq_false, Bool.and_eq_true, Bool.or_eq_true, beq_iff_eq,
      not_and, Bool.not_eq_true] at none_pending none_run none_lost
    refine ⟨fun run member lost task => ?_, fun run member busy => none_run run member busy,
      fun pending member => none_pending pending member⟩
    simp [none_lost run member task] at lost
  refine Takes.under (fun state => True ∧ inv state) (fun _ holds => ⟨trivial, holds.2.2.2.2.2⟩) ?_
  refine (((cleanupRetired_takes _).mono fun _ _ => .cleaned).frame inv kept).bind fun _ => ?_
  refine Takes.under (fun state => True ∧ inv state) (fun _ holds => ⟨trivial, holds.2⟩) ?_
  refine ((expireHistory_takes.mono fun _ _ => Retention.effect).frame inv kept).bind fun _ => ?_
  refine ((rotateWhile_takes.mono fun _ _ => Retention.effect).frame inv kept).bind fun _ => ?_
  refine (takeStart_takes pends inv kept).consequence ?_
  rintro _ after ⟨ticket, before, rfl, fresh, planned, rfl, _, holds, reserving⟩
  exact ⟨ticket, before, rfl, fresh, planned, admitted, holds, reserving⟩

/-- `begin_reserve` refers to a known run, or hands out a ticket for an admitted start. -/
theorem beginReserve_takes {plan : TaskLaunchPlan} {operationId : String} {parallel : Bool}
    (pends : ∀ registry, may.pend registry) (start : RunRegistry) (inv : RunRegistry → Prop)
    (kept : ∀ before after, inv before → Effect formats tickets may before after → inv after) :
    Takes answers (Effect formats tickets may) (fun registry => registry = start ∧ inv registry)
      (beginReserve formats plan operationId parallel)
      (fun reservation registry => ∀ ticket, reservation = .fresh ticket → ∃ before,
        (∃ asked, ticket.runId = (answers asked).newId) ∧
        ticket.plan.projectId = plan.projectId ∧ ticket.plan.task.id = plan.task.id ∧
        Admitted start ticket.plan ticket.outputs ∧ inv before ∧
        Reserving before registry ticket) := by
  have refers (runId : String) : Takes answers (Effect formats tickets may)
      (fun registry => registry = start ∧ inv registry) (existing runId)
      (fun reservation _ => ∀ ticket, reservation ≠ .fresh ticket) :=
    (infoOf_readOnly runId).takes.bind fun run => (Takes.value _).consequence (by
      rintro _ _ ⟨rfl, _⟩
      simp)
  refine (ReadOnly.lift _).takes.bind fun _ => ?_
  refine ReadOnly.current.takes.bind fun registry => ?_
  split
  · refine (ReadOnly.lift _).takes.bind fun _ => ?_
    exact (refers _).consequence fun _ _ known ticket same => absurd same (known ticket)
  · refine ReadOnly.answer.takes.bind fun answer => ?_
    refine (ReadOnly.lift _).takes.bind fun _ => ?_
    refine (ReadOnly.lift _).takes.bind fun fresh => ?_
    refine (ReadOnly.lift _).takes.bind fun _ => ?_
    refine ReadOnly.current.takes.bind fun registry => ?_
    refine (ReadOnly.lift _).takes.bind fun _ => ?_
    have admits : Takes answers (Effect formats tickets may)
        (fun registry => registry = start ∧ inv registry)
        (admitStart formats fresh.val operationId parallel)
        (fun reservation registry => ∀ ticket, reservation = .fresh ticket → ∃ before,
          (∃ asked, ticket.runId = (answers asked).newId) ∧
          ticket.plan.projectId = plan.projectId ∧ ticket.plan.task.id = plan.task.id ∧
          Admitted start ticket.plan ticket.outputs ∧ inv before ∧
          Reserving before registry ticket) := by
      refine (admitStart_takes pends start inv kept).consequence ?_
      rintro _ after ⟨ticket, before, rfl, named, planned, admitted, holds, reserving⟩ _ ⟨⟩
      rw [planned]
      exact ⟨before, named, fresh.2.1, fresh.2.2, admitted, holds, reserving⟩
    split
    · split
      · exact (refers _).consequence fun _ _ known ticket same => absurd same (known ticket)
      · exact admits
    · exact admits

/-- `begin_abandon` gives up the lease of a ticket that is no longer out. -/
theorem beginAbandon_takes {ticket : BeginTicket} :
    Takes answers (Effect formats tickets may)
      (fun registry => Floating tickets registry ticket) (beginAbandon ticket)
      (fun _ _ => True) := by
  refine (Takes.update fun state floating => .unpended floating.absent).bind fun _ => ?_
  refine (Takes.update ?_).consequence fun _ _ _ => trivial
  rintro _ ⟨before, floating, rfl⟩
  exact .dropped floating.withoutPending

theorem commitStart_atomic (ticket : BeginTicket) (sourceStart : SourceObservation) :
    Atomic (commitStart formats ticket sourceStart) := by
  refine ReadOnly.answer.bind_atomic fun _ => ?_
  refine (ReadOnly.lift _).bind_atomic fun _ => ?_
  refine (ReadOnly.lift _).bind_atomic fun _ => ?_
  refine (ReadOnly.lift _).bind_atomic fun _ => ?_
  refine ReadOnly.current.bind_atomic fun _ => ?_
  refine (saving_atomic fun registry => ?_).bind_total fun _ _ _ _ _ => nofun
  simp [appended]

theorem commitStart_takes {ticket : BeginTicket} {sourceStart : SourceObservation}
    (observed : sourceStart.identity = ticket.probeIdentity) :
    Takes answers (Effect formats tickets may)
      (fun registry => Floating tickets registry ticket ∧ may.commit registry)
      (commitStart formats ticket sourceStart)
      (fun _ registry => ∃ entry, registry.active[ticket.runId]? = some entry ∧
        entry.lease = ticket.lease) := by
  refine ReadOnly.answer.takes.bind fun _ => ?_
  refine (ReadOnly.lift _).takes.bind fun _ => ?_
  refine (ReadOnly.lift _).takes.bind fun _ => ?_
  refine (ReadOnly.lift _).takes.bind fun _ => ?_
  refine Takes.current.bind fun registry => ?_
  refine (saving_takes ?_ ?_).bind fun _ => (Takes.value _).consequence ?_
  · intro state _
    simp [appended]
  · rintro state answers ⟨_, floating, allowed⟩ valid
    exact .single (.committed floating allowed rfl ⟨rfl, rfl, rfl⟩ observed ⟨rfl, rfl⟩ valid)
  · rintro _ _ ⟨_, before, _, _, rfl⟩
    exact ⟨_, Std.TreeMap.getElem?_insert_self, rfl⟩

/-- A committed start holds the ticket's lease; a failed one gives it up. -/
theorem beginCommit_takes {ticket : BeginTicket} {sourceStart : SourceObservation}
    (observed : sourceStart.identity = ticket.probeIdentity) :
    Takes answers (Effect formats tickets may)
      (fun registry => Floating tickets registry ticket ∧
        may.commit (registry.withoutPending ticket.runId))
      (beginCommit formats ticket sourceStart)
      (fun _ registry => ∃ entry, registry.active[ticket.runId]? = some entry ∧
        entry.lease = ticket.lease) := by
  refine (Takes.update fun state holds => .unpended holds.1.absent).bind fun _ => ?_
  refine Takes.under (fun registry => Floating tickets registry ticket ∧ may.commit registry) ?_ ?_
  · rintro _ ⟨before, ⟨floating, allowed⟩, rfl⟩
    exact ⟨floating.withoutPending, allowed⟩
  refine ((commitStart_takes observed).attempt (fun registry => Floating tickets registry ticket) ?_).bind
    fun outcome => ?_
  · intro asked state holds error failed
    rw [commitStart_atomic ticket sourceStart answers asked state error failed]
    exact holds.1
  · cases outcome with
    | ok reply => exact (Takes.value reply).consequence fun _ _ kept => kept.2
    | error error => exact (Takes.update fun _ floating => .dropped floating).bind fun _ => .fail

end Idk
