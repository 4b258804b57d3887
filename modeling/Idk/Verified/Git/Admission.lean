import Idk.Git.Requests
import Idk.Verified.Git.Docket

/-!
# Where Git operations come from

Executing a plan is the one request that adds an operation; an operation that is over is
never at work again.

**Main results:**

- `request_within` and `tick_within`: whatever else a request or a tick does, every operation
  it leaves was there before, and at work if it is.
- `request_grows`: a request adds at most one operation, and only where there is room for it.
-/

namespace Idk.Git

open Idk.Logic
open Idk.Logic.Procedure (Ensures)

/-- Every operation was there, and is at work only if it was. -/
def Docket.Within (origin docket : Docket) : Prop :=
  ∀ id operation, docket.operations id = some operation →
    ∃ earlier, origin.operations id = some earlier ∧
      (operation.active = true → earlier.active = true)

namespace Docket.Within

variable {origin docket : Docket}

theorem refl (docket : Docket) : docket.Within docket :=
  fun _ operation found => ⟨operation, found, id⟩

/-- Each operation stays what it is or comes to its end. -/
theorem change (within : origin.Within docket) {operations : String → Option Operation}
    (each : ∀ id after, operations id = some after → ∃ before, docket.operations id = some before ∧
      (after.active = true → before.active = true)) :
    origin.Within { docket with operations := operations } := by
  intro id after found
  obtain ⟨before, there, active⟩ := each id after found
  obtain ⟨earlier, known, was⟩ := within id before there
  exact ⟨earlier, known, fun now => was (active now)⟩

theorem set (within : origin.Within docket) {id : String} {before after : Operation}
    (found : docket.operations id = some before)
    (active : after.active = true → before.active = true) :
    origin.Within (docket.set id after) := by
  refine within.change fun other operation known => ?_
  by_cases same : other = id
  · simp only [same, Function.update_self, Option.some.injEq] at known
    exact ⟨before, same ▸ found, known ▸ active⟩
  · rw [Function.update_of_ne same] at known
    exact ⟨operation, known, fun now => now⟩

end Docket.Within

/-! ## What becomes of one operation -/

theorem finish_active {operation : Operation} {now : Nat} {result : Result OperationResult}
    (active : (operation.finish now result).active = true) : operation.active = true := by
  unfold Operation.finish at active
  split at active
  · exact active
  · cases result <;> simp [Operation.active] at active

theorem abandoned_active {operation : Operation} {now : Nat}
    (active : (operation.abandoned now).active = true) : operation.active = true := by
  unfold Operation.abandoned at active
  split at active
  · exact finish_active active
  · split at active
    · exact finish_active active
    · exact active

theorem reapedWith_active {operation : Operation} {now : Nat} {receiver : Bool}
    (active : (operation.reapedWith now receiver).active = true) : operation.active = true := by
  simp only [Operation.reapedWith] at active
  split at active
  · simp [Operation.active] at active
  · exact active

theorem tick_active {operation : Operation} {answers : Operation.TickAnswers} {receiver : Bool}
    (active : (operation.tick answers receiver).1.active = true) : operation.active = true := by
  have ticked := tick_cases operation answers receiver
  generalize operation.tick answers receiver = after at ticked active
  cases ticked with
  | quiet after quiet => exact quiet.sustained.active ▸ active
  | reaped pid seen exit settled terminal cleanup observed reaped reaps quiet =>
    exact quiet.sustained.active ▸ reapedWith_active active

/-! ## Procedures -/

section Procedures

variable (formats : GitFormats) {answers : Nat → Answers} {origin : Docket}

theorem within_closed (origin : Docket) : Docket.Closed origin.Within := by
  intro before after within step
  cases step with
  | forgot | planned | dropped | stored => exact within
  | steady each =>
    refine within.change fun id after found => ?_
    have pair := each id
    rw [found] at pair
    cases known : before.operations id with
    | none =>
      rw [known] at pair
      cases pair
    | some operation =>
      rw [known] at pair
      cases pair with
      | some requested => exact ⟨operation, rfl, fun now => requested.toSustained.active ▸ now⟩
  | installed popped found =>
    exact within.set found fun now => (install_sustained _ _ _).active ▸ now
  | concluded popped found => exact within.set found finish_active
  | swept dead =>
    refine within.change fun id after found => ?_
    obtain ⟨operation, there, rfl⟩ := Option.map_eq_some_iff.mp found
    exact ⟨operation, there, abandoned_active⟩

theorem within_reconciles {id : String} {before after : Docket} (within : origin.Within before)
    (step : Docket.Reconciles id before after) : origin.Within after := by
  cases step with
  | reconciled found =>
    exact within.set found fun now => (reconciled_sustained _).active ▸ now
  | unreconciled => exact within

/-- The bridge's operations are among these. -/
abbrev Within (origin : Docket) (bridge : Bridge) : Prop := origin.Within bridge.docket

theorem operationRequest_within (client id : String) (request : OperationRequest) :
    Keeps answers (operationRequest client id request) (Within origin) :=
  operationRequest_keeps_docket (within_closed origin) client id request
    fun _ _ _ _ within step => within_reconciles within step

/-- All requests but those to execute a plan. -/
theorem request_within (client : String) (shells : Nat) (quiescing : Bool)
    (screen : Result (Option TerminalSnapshot)) (asked : GitRequest)
    (other : quiescing = true ∨ ∀ plan rows cols, asked ≠ .execute plan rows cols) :
    Keeps answers (request formats client shells quiescing screen asked) (Within origin) := by
  refine .known fun bridge within => ?_
  cases asked with
  | submit task =>
    refine .thenCheck within fun _ _ => .thenRead (.thenCheck within fun _ _ => ?_)
    exact .thenCall (submit_keeps_docket formats (within_closed origin) client task) within
      fun _ _ within => .done within
  | job id =>
    have looked : Keeps answers (jobOf client id) (Within origin) :=
      .read fun _ within => .thenCheck within fun _ _ => .thenCheck within fun _ _ => .done within
    exact .thenCall looked within fun _ _ within => .done within
  | execute plan rows cols =>
    cases other with
    | inl closing =>
      subst closing
      exact .thenCheck within fun _ impossible => absurd impossible (by simp)
    | inr other => exact absurd rfl (other plan rows cols)
  | operations project => exact .thenRead (.done within)
  | snapshot id since =>
    refine .thenCall (operationOf_keeps id) within fun _ _ known => .thenCheck known.1 fun _ _ => ?_
    exact .done known.1
  | operation id asked =>
    cases asked with
    | cancel epoch force =>
      refine .thenCall (operationOf_keeps id) within fun _ _ known => ?_
      refine .thenCall (cancelOperation_keeps_docket (within_closed origin) client id epoch force)
        known.1 fun _ _ within => ?_
      exact .thenCall (operationOf_keeps id) within fun _ _ known => .done known.1
    | attach | detach | reconcile =>
      refine .thenCall (operationRequest_within client id _) within fun _ _ within => ?_
      exact .thenCall (operationOf_keeps id) within fun _ _ known => .done known.1
    | input | resize =>
      exact .thenCall (operationRequest_within client id _) within fun _ _ within => .done within

theorem tickOperation_within (id : String) (terminal : Operation.TickAnswers) (receiver : Bool) :
    Keeps answers (tickOperation id terminal receiver) (Within origin) := by
  refine .known fun bridge within => .thenCall (operationOf_ends id bridge |>.relax ?_) rfl ?_
  · rintro _ ⟨rfl, _⟩
    exact within
  · rintro operation _ ⟨rfl, found⟩
    refine .thenUpdate (.done ?_)
    rw [Within, docket_setOperation]
    exact within.set found tick_active

theorem repeated_keeps {op : Op Unit} {inv : Bridge → Prop} (kept : Keeps answers op inv)
    (rounds : Nat) : Keeps answers (repeated op rounds) inv := by
  induction rounds with
  | zero => exact .value fun _ holds => holds
  | succ rounds inductionHypothesis => exact kept.bind fun _ => inductionHypothesis

theorem inventories_within (host : Host.Pid) (answer : Host.Pid → Host.ChildAnswer)
    (report : Host.Report) : Keeps answers (inventories host answer report) (Within origin) := by
  refine .known fun bridge within => .updated ?_
  refine Docket.Within.change within fun id after found => ?_
  rw [Std.TreeMap.getElem?_map] at found
  obtain ⟨operation, there, rfl⟩ := Option.map_eq_some_iff.mp found
  exact ⟨operation, there, fun now => (inventory_steady _ _ _ _).toSustained.active ▸ now⟩

theorem tick_within (terminals : String → Operation.TickAnswers) (receives : String → Bool) :
    Keeps answers (tick terminals receives) (Within origin) := by
  have closed := within_closed origin
  have each : ∀ entry : String × Operation, Keeps answers (do
      let _ ← tickOperation entry.1 (terminals entry.1) (receives entry.1)) (Within origin) :=
    fun entry => (tickOperation_within _ _ _).bind fun _ => .value fun _ within => within
  refine (repeated_keeps (nextEvent_keeps_docket closed) 16).bind fun _ => ?_
  refine sweepReads_keeps_docket.bind fun _ => (sweepExecutions_keeps_docket closed).bind fun _ => ?_
  have ticked : Keeps answers (tickOperations terminals receives) (Within origin) :=
    .read fun bridge within => .tail (.forM each _) within
  refine ticked.bind fun _ => (forgetScreens_keeps_docket closed).bind fun _ => ?_
  exact .read fun bridge within => .tail (repeated_keeps dispatchRead_keeps_docket _) within

/-! ## Executing a plan -/

/-- Every operation but `id` was there, and is at work only if it was. -/
def Docket.WithinBut (origin : Docket) (id : String) (docket : Docket) : Prop :=
  ∀ other operation, other ≠ id → docket.operations other = some operation →
    ∃ earlier, origin.operations other = some earlier ∧
      (operation.active = true → earlier.active = true)

/-- There is room for one process more beside `shells` others. -/
def Bridge.Roomy (bridge : Bridge) (shells : Nat) : Prop :=
  bridge.occupied < 4 ∧ bridge.occupied + shells < maxTerminals

/-- At most one operation is new, and that only where there was room. -/
def Bridge.Grows (bridge : Bridge) (shells : Nat) (last : Bridge) : Prop :=
  Within bridge.docket last ∨
    bridge.Roomy shells ∧ ∃ id, bridge.docket.WithinBut id last.docket

theorem Docket.WithinBut.same {id : String} {before after : Bridge}
    (within : origin.WithinBut id before.docket)
    (same : ∀ other, other ≠ id → after.operations[other]? = before.operations[other]?) :
    origin.WithinBut id after.docket := by
  intro other operation differs found
  refine within other operation differs ?_
  exact (same other differs).symm.trans found

theorem admission_grows {client id : String} {shells : Nat} {bridge : Bridge} :
    Ensures answers (· = bridge) (admission client id shells)
      (fun _ last => bridge.Roomy shells ∧ Within bridge.docket last) (Within bridge.docket) := by
  refine .thenAsk fun asked => .thenUpdate (.thenRead ?_)
  have pruned : Within bridge.docket (bridge.prune (answers asked).now) :=
    prune_keeps_docket (within_closed _) (.refl _) _
  refine .thenCheck pruned fun _ roomy => ?_
  have roomy : bridge.Roomy shells := by
    simpa [Bridge.Roomy, Bridge.prune, Bridge.occupied] using ensure_eq_ok.mp roomy
  have capacity : Ensures answers (Within bridge.docket) operationCapacity
      (fun _ => Within bridge.docket) (Within bridge.docket) := by
    refine .known fun last within => .thenRead (.branch (fun _ => ?_) fun _ => .done within)
    refine .thenCheck within fun victim _ => .updated ?_
    rw [Within, docket_removeOperation]
    refine within.change fun other operation found => ?_
    by_cases same : other = victim
    · rw [same, Function.update_self] at found
      cases found
    · rw [Function.update_of_ne same] at found
      exact ⟨operation, found, fun now => now⟩
  refine .thenCall capacity pruned fun _ last within => .thenRead ?_
  refine .thenCheck within fun plan _ => .thenCheck within fun _ _ => ?_
  refine .thenCall (contextOf_keeps plan.context client) within fun record _ known => ?_
  refine .thenCheck known.1 fun _ _ => .thenCheck known.1 fun repo _ => ?_
  exact .thenCheck known.1 fun _ _ => .thenCheck known.1 fun service _ => .done ⟨roomy, known.1⟩

/-- The operation is `id` or untouched. -/
theorem dispatch_others {id service : String} {plan : Plan} {rows cols : Nat} {bridge : Bridge} :
    Ensures answers (· = bridge) (dispatch id service plan rows cols)
      (fun _ last => ∀ other, other ≠ id → last.operations[other]? = bridge.operations[other]?)
      (fun _ => False) := by
  refine .thenUpdate (.thenUpdate (.thenRead (.branch (fun _ => .updated fun _ _ => rfl) fun _ => ?_)))
  refine .thenAsk fun asked => .thenUpdate (.thenUpdate ?_)
  have untouched : ∀ other, other ≠ id → (Bridge.modifyOperation id
      (·.finish (answers asked).now
        (.error "Git execution worker is unavailable; no child was started"))
      (Bridge.setBusy plan.repository none (Bridge.setBusy plan.repository (some id)
        { bridge with plans := bridge.plans.erase id }))).operations[other]? =
      bridge.operations[other]? := by
    intro other differs
    simp [Bridge.modifyOperation, Bridge.setBusy, modify_get, Ne.symm differs]
  refine .thenAttempt (persist_ends _) rfl ?_ ?_
  · rintro _ _ rfl
    exact .done untouched
  · rintro error _ (rfl | rfl) <;> exact .done untouched

theorem execute_grows {client id : String} {rows cols shells : Nat} {bridge : Bridge} :
    Ensures answers (· = bridge) (execute client id rows cols shells)
      (fun _ => bridge.Grows shells) (bridge.Grows shells) := by
  have same : bridge.Grows shells bridge := .inl (.refl _)
  refine .thenRead ?_
  split
  · exact .done same
  · refine .thenAsk fun asked => .thenCheck same fun _ _ => ?_
    refine .thenCall (admission_grows.relax fun _ => .inl) rfl ?_
    rintro ⟨plan, service, operation⟩ last ⟨roomy, within⟩
    have set : ∀ other, other ≠ id →
        (last.setOperation id operation).operations[other]? = last.operations[other]? := by
      intro other differs
      simp [Bridge.setOperation, insert_get, Ne.symm differs]
    have but : bridge.docket.WithinBut id last.docket := fun other operation _ => within other operation
    refine .thenUpdate (.thenAttempt (persist_ends _) rfl ?_ ?_)
    · rintro _ _ rfl
      refine .thenCall ((@dispatch_others answers id service plan rows cols _).relax fun _ => False.elim) rfl ?_
      intro _ after others
      have grown : bridge.Grows shells after :=
        .inr ⟨roomy, id, but.same fun other differs => (others other differs).trans (set other differs)⟩
      refine .thenCall ((operationOf_ends id after).relax fun _ kept => ?_) rfl fun _ _ kept => ?_
      · exact kept.1 ▸ grown
      · exact .done (kept.1 ▸ grown)
    · have back : ∀ other, other ≠ id →
          (Bridge.removeOperation id (last.setOperation id operation)).operations[other]? =
            last.operations[other]? := by
        intro other differs
        simp [Bridge.removeOperation, Bridge.setOperation, erase_get, insert_get, Ne.symm differs]
      rintro error _ (rfl | rfl) <;>
        exact .thenUpdate (.failing (.inr ⟨roomy, id, but.same back⟩))

theorem request_grows (client : String) (shells : Nat) (quiescing : Bool)
    (screen : Result (Option TerminalSnapshot)) (asked : GitRequest) (bridge : Bridge) :
    Ensures answers (· = bridge) (request formats client shells quiescing screen asked)
      (fun _ => bridge.Grows shells) (bridge.Grows shells) := by
  have plain (other : ∀ plan rows cols, asked ≠ .execute plan rows cols) :
      Ensures answers (· = bridge) (request formats client shells quiescing screen asked)
        (fun _ => bridge.Grows shells) (bridge.Grows shells) :=
    (request_within formats client shells quiescing screen asked (.inr other)).consequence
      (fun _ same => same ▸ .refl _) (fun _ _ => .inl) fun _ => .inl
  cases asked with
  | execute plan rows cols =>
    have same : bridge.Grows shells bridge := .inl (.refl _)
    refine .thenCheck same fun _ _ => .thenRead (.thenCheck same fun _ _ => ?_)
    exact .thenCall execute_grows rfl fun _ _ grown => .done grown
  | submit | job | operations | operation | snapshot => exact plain nofun

end Procedures

/-- At most one operation more is at work. -/
theorem Bridge.Grows.occupied {bridge last : Bridge} {shells : Nat}
    (grows : bridge.Grows shells last) : last.occupied ≤ bridge.occupied ∨
      bridge.Roomy shells ∧ last.occupied ≤ bridge.occupied + 1 := by
  obtain within | ⟨roomy, id, within⟩ := grows
  · left
    refine count_le fun key operation found active => ?_
    obtain ⟨earlier, there, was⟩ := within key operation found
    exact ⟨earlier, there, was active⟩
  · right
    refine ⟨roomy, count_le_succ id fun key operation found active => ?_⟩
    by_cases same : key = id
    · exact .inl same
    · obtain ⟨earlier, there, was⟩ := within key operation same found
      exact .inr ⟨earlier, there, was active⟩

end Idk.Git
