import Idk.Git.Requests
import Idk.Verified.Git.SingleFlight

/-!
# Requests to execute that are refused

`execute` prunes expired tokens and makes room in the history before most of its checks.

**Main result:** `refusal_keeps_iff`: a refused request leaves operations, plans and
repositories as they were exactly when it did not make room.
-/

namespace Idk.Git

open Idk.Logic
open Idk.Logic.Procedure (Ensures EndsAt)

/-- The token of the plan has not run out. -/
def Bridge.unexpired (bridge : Bridge) (now : Nat) (plan : Plan) : Bool :=
  now - plan.created < tokenTtl && bridge.contexts.contains plan.context

/-- Operations, repositories with their busy markers and unexpired plans are the same; no
    plan is new. -/
structure Bridge.Unchanged (before : Bridge) (now : Nat) (after : Bridge) : Prop where
  operations : ∀ id : String, after.operations[id]? = before.operations[id]?
  repos : after.repos = before.repos
  kept : ∀ (id : String) plan, before.plans[id]? = some plan → before.unexpired now plan = true →
    after.plans[id]? = some plan
  known : ∀ (id : String) plan, after.plans[id]? = some plan → before.plans[id]? = some plan

/-- The request gets as far as taking an operation out of a full history. -/
structure Bridge.MakesRoom (bridge : Bridge) (id : String) (shells : Nat) (quiescing : Bool)
    (runUse : Result Unit) : Prop where
  accepting : quiescing = false ∧ bridge.executionsDead = false
  unknown : bridge.operations[id]? = none
  unlocked : runUse = .ok ()
  capacity : bridge.occupied < 4 ∧ bridge.occupied + shells < maxTerminals
  full : maxOperations ≤ bridge.operations.size
  evictable : ∃ (old : String) (operation : Operation),
    bridge.operations[old]? = some operation ∧ Git.evictable operation = true

/-- The same operations, plans and repositories. -/
structure Bridge.Alike (left right : Bridge) : Prop where
  operations : ∀ id : String, left.operations[id]? = right.operations[id]?
  repos : left.repos = right.repos
  plans : left.plans = right.plans

theorem Bridge.Alike.refl (bridge : Bridge) : bridge.Alike bridge := ⟨fun _ => rfl, rfl, rfl⟩

theorem Bridge.Unchanged.refl (bridge : Bridge) (now : Nat) : bridge.Unchanged now bridge :=
  ⟨fun _ => rfl, rfl, fun _ _ found _ => found, fun _ _ found => found⟩

theorem prune_unchanged (bridge : Bridge) (now : Nat) : bridge.Unchanged now (bridge.prune now) where
  operations _ := rfl
  repos := rfl
  kept id plan found unexpired := by
    simp only [Bridge.prune, Std.TreeMap.getElem?_filter, found]
    simpa [Bridge.unexpired] using unexpired
  known id plan found := by
    simp only [Bridge.prune, Std.TreeMap.getElem?_filter, Option.pfilter_eq_some_iff] at found
    exact found.choose

theorem Bridge.Unchanged.alike {before middle after : Bridge} {now : Nat}
    (unchanged : before.Unchanged now middle) (alike : after.Alike middle) :
    before.Unchanged now after where
  operations id := (alike.operations id).trans (unchanged.operations id)
  repos := alike.repos.trans unchanged.repos
  kept id plan found unexpired := by
    rw [alike.plans]
    exact unchanged.kept id plan found unexpired
  known id plan found := by
    rw [alike.plans] at found
    exact unchanged.known id plan found

/-- Once a fold has a best entry it keeps having one. -/
theorem foldl_ne_none {α : Type} {older : Option α → α → Option α} {rest : List α} {entry : α}
    (keeps : ∀ best head, older (some best) head ≠ none) (takes : ∀ best, older best entry ≠ none)
    {start : Option α} (found : start ≠ none ∨ entry ∈ rest) : rest.foldl older start ≠ none := by
  induction rest generalizing start with
  | nil => simpa using found
  | cons head tail inductionHypothesis =>
    apply inductionHypothesis
    rw [List.mem_cons] at found
    rcases found with found | rfl | found
    · obtain ⟨best, rfl⟩ := Option.ne_none_iff_exists'.mp found
      exact .inl (keeps best head)
    · exact .inl (takes start)
    · exact .inr found

/-- Something eligible is found when there is something eligible. -/
theorem oldest_some {κ α : Type} {eligible : κ → α → Bool} {age : α → Nat}
    {entries : List (κ × α)} {entry : κ × α} (member : entry ∈ entries)
    (fits : eligible entry.1 entry.2 = true) : oldest eligible age entries ≠ none := by
  simp only [oldest, ne_eq, Option.map_eq_none_iff]
  refine foldl_ne_none (fun best head => ?_) (fun best => ?_) (.inr member)
  · split
    · simp only
      split <;> simp
    · simp
  · simp only [fits, ↓reduceIte]
    cases best with
    | none => simp
    | some other =>
      simp only
      split <;> simp

section Refusal

variable {answers : Nat → Answers} {bridge : Bridge} {client id : String} {shells now : Nat}
  {quiescing : Bool} {runUse : Result Unit}

/-- How a refused request may leave the bridge. -/
def Bridge.Refused (bridge : Bridge) (id : String) (shells : Nat) (quiescing : Bool)
    (runUse : Result Unit) (now : Nat) (last : Bridge) : Prop :=
  (¬ bridge.MakesRoom id shells quiescing runUse ∧ bridge.Unchanged now last) ∨
  (bridge.MakesRoom id shells quiescing runUse ∧ ∃ (old : String) (operation : Operation),
    bridge.operations[old]? = some operation ∧ last.operations[old]? = none)

theorem Bridge.Refused.alike {last after : Bridge}
    (refused : bridge.Refused id shells quiescing runUse now last) (alike : after.Alike last) :
    bridge.Refused id shells quiescing runUse now after := by
  rcases refused with ⟨kept, unchanged⟩ | ⟨made, old, operation, found, gone⟩
  · exact .inl ⟨kept, unchanged.alike alike⟩
  · exact .inr ⟨made, old, operation, found, (alike.operations old).trans gone⟩

/-- Room in the history, once everything before it was in order. -/
theorem operationCapacity_ends {asked : Nat}
    (accepting : quiescing = false ∧ bridge.executionsDead = false)
    (unknown : bridge.operations[id]? = none) (unlocked : runUse = .ok ())
    (capacity : bridge.occupied < 4 ∧ bridge.occupied + shells < maxTerminals) :
    EndsAt answers asked (bridge.prune now) operationCapacity
      (fun _ last => bridge.Refused id shells quiescing runUse now last ∧
        last.operations[id]? = none)
      (bridge.Refused id shells quiescing runUse now) := by
  have pruned := prune_unchanged bridge now
  refine .thenRead ?_
  by_cases full : maxOperations ≤ (bridge.prune now).operations.size
  · rw [if_pos full]
    refine .thenCheck (fun error failed => ?_) fun victim picked => ?_
    · refine .inl ⟨fun makes => ?_, pruned⟩
      obtain ⟨old, operation, found, fits⟩ := makes.evictable
      have member : (old, operation) ∈ bridge.operations.toList := by simpa using found
      cases picked : oldest (fun _ operation => evictable operation) (·.finishedAt.getD 0)
          (bridge.prune now).operations.toList with
      | none => exact oldest_some member fits picked
      | some victim =>
        rw [picked] at failed
        cases failed
    · obtain ⟨operation, found, fits⟩ := oldest_found (context_eq_ok.mp picked)
      refine ⟨.inr ⟨⟨accepting, unknown, unlocked, capacity, full, victim, operation, found, fits⟩,
        victim, operation, found, by simp [Bridge.removeOperation]⟩, ?_⟩
      simp only [Bridge.removeOperation, Std.TreeMap.getElem?_erase]
      split
      · rfl
      · exact unknown
  · rw [if_neg full]
    exact .done ⟨.inl ⟨fun makes => full makes.full, pruned⟩, unknown⟩

/-- The checks after `operationCapacity` change nothing. -/
theorem admission_ends {asked : Nat}
    (accepting : quiescing = false ∧ bridge.executionsDead = false)
    (unknown : bridge.operations[id]? = none) (unlocked : runUse = .ok ()) :
    EndsAt answers asked bridge (admission client id shells)
      (fun _ last => bridge.Refused id shells quiescing runUse (answers asked).now last ∧
        last.operations[id]? = none)
      (bridge.Refused id shells quiescing runUse (answers asked).now) := by
  have same : (bridge.prune (answers asked).now).occupied = bridge.occupied := rfl
  refine .thenAsk (.thenUpdate (.thenRead (.thenCheck (fun error full => ?_) fun _ room => ?_)))
  · refine .inl ⟨fun makes => ?_, prune_unchanged bridge _⟩
    have fits : (bridge.occupied < 4 && bridge.occupied + shells < maxTerminals) = true := by
      simpa using makes.capacity
    rw [same, fits] at full
    cases full
  · rw [same] at room
    have capacity : bridge.occupied < 4 ∧ bridge.occupied + shells < maxTerminals := by
      simpa using ensure_eq_ok.mp room
    refine (operationCapacity_ends accepting unknown unlocked capacity).bind fun _ => ?_
    -- from here on a refusal leaves what making room has left
    refine .known fun last holds => .thenRead ?_
    refine .thenCheck holds.1 fun plan _ => .thenCheck holds.1 fun _ _ => ?_
    refine .thenCall (@contextOf_keeps _ plan.context client (· = last)
      |>.relax fun _ same => same ▸ holds.1) rfl ?_
    rintro record _ ⟨rfl, _⟩
    exact .thenCheck holds.1 fun _ _ => .thenCheck holds.1 fun repo _ =>
      .thenCheck holds.1 fun _ _ => .thenCheck holds.1 fun service _ => .done holds

/-- An operation that was put in and taken out again leaves no trace. -/
theorem removed_alike {last : Bridge} (unknown : last.operations[id]? = none)
    (operation : Operation) : ((last.setOperation id operation).removeOperation id).Alike last where
  operations other := by
    simp only [Bridge.removeOperation, Bridge.setOperation, Std.TreeMap.getElem?_erase,
      Std.TreeMap.getElem?_insert]
    split
    · rename_i same
      rw [← unknown, Std.LawfulEqCmp.compare_eq_iff_eq.mp same]
    · rfl
  repos := rfl
  plans := rfl

/-- Handing the operation on cannot fail, and keeps the operation. -/
theorem dispatch_holds {service : String} {plan : Plan} {rows cols : Nat} :
    Ensures answers (fun bridge => bridge.operations.contains id = true)
      (dispatch id service plan rows cols) (fun _ bridge => bridge.operations.contains id = true)
      (fun _ => False) := by
  refine .known fun bridge holds => .thenUpdate (.thenUpdate (.thenRead (.branch (fun _ => ?_)
    fun _ => ?_)))
  · exact .updated holds
  · refine .thenAsk fun _ => .thenUpdate (.thenUpdate (.thenAttempt (persist_ends _) rfl ?_ ?_))
    · rintro _ _ rfl
      exact .done (Std.TreeMap.contains_modify.trans holds)
    · rintro _ _ (rfl | rfl) <;> exact .done (Std.TreeMap.contains_modify.trans holds)

theorem execute_refused {rows cols : Nat} {asked : Nat}
    (accepting : quiescing = false ∧ bridge.executionsDead = false) :
    EndsAt answers asked bridge (execute client id rows cols shells) (fun _ _ => True)
      (bridge.Refused id shells quiescing (answers asked).runUse (answers (asked + 1)).now) := by
  refine .thenRead ?_
  cases unknown : bridge.operations[id]? with
  | some operation => exact .done trivial
  | none =>
    refine .thenAsk (.thenCheck (fun error locked => ?_) fun _ unlocked => ?_)
    · refine .inl ⟨fun makes => ?_, .refl bridge _⟩
      rw [makes.unlocked] at locked
      cases locked
    · refine (admission_ends accepting unknown unlocked).bind ?_
      rintro ⟨plan, service, operation⟩
      refine .known fun last ⟨holds, unused⟩ => .thenUpdate (.thenAttempt (persist_ends _) rfl ?_ ?_)
      · rintro _ _ rfl
        have held : ((last.setOperation id operation).stored).operations.contains id = true := by
          simp [Bridge.stored, Bridge.setOperation]
        refine .thenCall (dispatch_holds.relax fun _ => False.elim) held fun _ later known => ?_
        refine .thenCall ((operationOf_ends id later).relax ?_) rfl fun _ _ _ => .done trivial
        rintro _ ⟨_, gone⟩
        rw [Std.TreeMap.contains_eq_isSome_getElem?, gone] at known
        cases known
      · have back := holds.alike (removed_alike unused operation)
        rintro _ _ (rfl | rfl)
        · exact .thenUpdate (.failing back)
        · refine .thenUpdate (.failing (back.alike ?_))
          exact ⟨fun _ => rfl, rfl, rfl⟩

/-- How a request to execute may be refused. -/
theorem executeRequest_refused {formats : GitFormats} {rows cols asked : Nat}
    {screen : Result (Option TerminalSnapshot)} :
    EndsAt answers asked bridge
      (request formats client shells quiescing screen (.execute id rows cols)) (fun _ _ => True)
      (bridge.Refused id shells quiescing (answers asked).runUse (answers (asked + 1)).now) := by
  refine .thenCheck (fun _ closing => ?_) fun _ serving => .thenRead (.thenCheck
    (fun _ dead => ?_) fun _ alive => ?_)
  · refine .inl ⟨fun makes => ?_, .refl bridge _⟩
    rw [makes.accepting.1] at closing
    cases closing
  · refine .inl ⟨fun makes => ?_, .refl bridge _⟩
    rw [makes.accepting.2] at dead
    cases dead
  · have accepting : quiescing = false ∧ bridge.executionsDead = false := by
      simpa using And.intro (ensure_eq_ok.mp serving) (ensure_eq_ok.mp alive)
    exact (execute_refused accepting).bind fun _ => Ensures.value fun _ _ => trivial

/-- A refused `GitExecute` leaves operations, repositories and unexpired plans as they were,
    exactly when it did not get as far as taking an operation out of a full history. -/
theorem refusal_keeps_iff (formats : GitFormats) (client plan : String) (rows cols shells : Nat)
    (quiescing : Bool) (screen : Result (Option TerminalSnapshot)) (answers : Nat → Answers)
    (asked : Nat) (bridge : Bridge)
    (refused : ∃ error, (request formats client shells quiescing screen
      (.execute plan rows cols) answers asked bridge).result = .error error) :
    bridge.Unchanged (answers (asked + 1)).now (request formats client shells quiescing screen
      (.execute plan rows cols) answers asked bridge).state ↔
    ¬ bridge.MakesRoom plan shells quiescing (answers asked).runUse := by
  obtain ⟨error, refused⟩ := refused
  rcases executeRequest_refused.error refused with ⟨kept, unchanged⟩ | ⟨makes, old, operation, found, gone⟩
  · exact ⟨fun _ => kept, fun _ => unchanged⟩
  · refine ⟨fun unchanged => ?_, fun kept => absurd makes kept⟩
    rw [← unchanged.operations old, gone] at found
    cases found

end Refusal

theorem refusal_keeps_iff_sample :
    sampleWorld.bridge.Unchanged 0 (request sampleFormats "client" 0 false (.ok none)
      (.execute "plan" 24 80) (fun _ => sampleAnswers "id") 0 sampleWorld.bridge).state ↔
    ¬ sampleWorld.bridge.MakesRoom "plan" 0 false (.ok ()) :=
  refusal_keeps_iff sampleFormats "client" "plan" 24 80 0 false (.ok none)
    (fun _ => sampleAnswers "id") 0 sampleWorld.bridge ⟨_, rfl⟩

/-! ## A full history -/

/-- The `index`-th operation of the past. -/
def pastId (index : Nat) : String := String.singleton (Char.ofNat (200 + index))

def pastRecord (index : Nat) : GitRecord where
  id := pastId index
  contextId := "context"
  projectId := "project"
  repository := sampleRepository
  kind := .fetch
  state := .complete
  cleanupAcknowledged := false
  outcome := some .succeeded
  exitCode := some 0
  commit := none
  error := none

def pastLedger : GitLedger := ⟨1, (List.range maxOperations).map pastRecord⟩

def pastWorld : World :=
  .opened (openDisk sampleFormats "host" [pastLedger] fun _ => sampleAnswers "id").state
    fun _ => sampleRevision

/-- The request to execute a plan that nobody has made. -/
def strayExecute : Outcome String Bridge GitReply :=
  request sampleFormats "client" 0 false (.ok none) (.execute "plan" 24 80)
    (fun _ => sampleAnswers "id") 0 pastWorld.bridge

theorem pastId_inj {left right : Nat} (first : left < maxOperations) (second : right < maxOperations)
    (same : pastId left = pastId right) : left = right := by
  have scalar {index : Nat} (bound : index < maxOperations) :
      (Char.ofNat (200 + index)).toNat = 200 + index := by
    simp only [maxOperations] at bound
    rw [Char.ofNat, dif_pos (.inl (by omega))]
    rfl
  have equal := congrArg Char.toNat (String.singleton_inj.mp same)
  rw [scalar first, scalar second] at equal
  omega

/-- The bridge holds the first `count` operations of the past and no others, and no plan. -/
structure Bridge.Past (bridge : Bridge) (count : Nat) : Prop where
  host : bridge.instanceId = "host"
  size : bridge.operations.size = count
  restored : ∀ index < count,
    bridge.operations[pastId index]? = some ((pastRecord index).restored "host" 0)
  known : ∀ (id : String) operation, bridge.operations[id]? = some operation →
    ∃ index < count, id = pastId index ∧ operation = (pastRecord index).restored "host" 0
  plans : bridge.plans = ∅
  alive : bridge.executionsDead = false

theorem Bridge.Past.next {bridge : Bridge} {count : Nat} (past : bridge.Past count)
    (bound : count < maxOperations) :
    bridge.operations.contains (pastId count) = false ∧
      (bridge.setOperation (pastId count) ((pastRecord count).restored "host" 0)).Past
        (count + 1) := by
  have unknown : bridge.operations.contains (pastId count) = false := by
    rw [Std.TreeMap.contains_eq_isSome_getElem?, Option.isSome_eq_false_iff,
      Option.isNone_iff_eq_none]
    by_contra held
    obtain ⟨operation, held⟩ := Option.ne_none_iff_exists'.mp held
    obtain ⟨index, earlier, same, -⟩ := past.known _ _ held
    have := pastId_inj bound (by omega) same
    omega
  refine ⟨unknown, past.host, ?_, fun index earlier => ?_, fun id operation found => ?_, past.plans,
    past.alive⟩
  · simp only [Bridge.setOperation, Std.TreeMap.size_insert, unknown, past.size]
    simp
  · simp only [Bridge.setOperation, Std.TreeMap.getElem?_insert]
    split
    · rename_i same
      rw [pastId_inj bound (by omega) (Std.LawfulEqCmp.compare_eq_iff_eq.mp same)]
    · rename_i other
      refine past.restored index (Nat.lt_of_le_of_ne (Nat.le_of_lt_succ earlier) ?_)
      rintro rfl
      exact other Std.ReflCmp.compare_self
  · simp only [Bridge.setOperation, Std.TreeMap.getElem?_insert] at found
    split at found
    · rename_i same
      exact ⟨count, Nat.lt_succ_self count, (Std.LawfulEqCmp.compare_eq_iff_eq.mp same).symm,
        (Option.some.inj found).symm⟩
    · obtain ⟨index, earlier, facts⟩ := past.known id operation found
      exact ⟨index, Nat.lt_succ_of_lt earlier, facts⟩

/-- A record of the past is valid as long as its id is new. -/
theorem pastRecord_valid {index : Nat} {seen : List String} (unused : pastId index ∉ seen) :
    (pastRecord index).validate sampleFormats seen = .ok () := by
  have fresh : seen.contains (pastId index) = false := by simpa using unused
  simp only [GitRecord.validate, pastRecord, fresh]
  rfl

theorem pastRecords_valid : ∀ (rest start : Nat) (seen : List String),
    start + rest ≤ maxOperations → (∀ id ∈ seen, ∃ index < start, id = pastId index) →
    validateRecords sampleFormats seen ((List.range' start rest).map pastRecord) = .ok () := by
  intro rest
  induction rest with
  | zero => exact fun _ _ _ _ => rfl
  | succ rest inductionHypothesis =>
    intro start seen bound earlier
    have unused : pastId start ∉ seen := by
      intro member
      obtain ⟨index, before, same⟩ := earlier _ member
      have := pastId_inj (by omega) (by omega) same
      omega
    simp only [List.range'_succ, List.map_cons, validateRecords, pastRecord_valid unused]
    refine inductionHypothesis (start + 1) _ (by omega) fun id member => ?_
    rcases List.mem_cons.mp member with rfl | member
    · exact ⟨start, Nat.lt_succ_self start, rfl⟩
    · obtain ⟨index, before, same⟩ := earlier id member
      exact ⟨index, Nat.lt_succ_of_lt before, same⟩

theorem pastLedger_operations :
    pastLedger.operations = (List.range' 0 maxOperations).map pastRecord := by
  simp only [pastLedger, List.range_eq_range']

theorem pastLedger_valid : pastLedger.validate sampleFormats = .ok () := by
  have fits : pastLedger.operations.length ≤ maxOperations := by
    simp only [pastLedger, List.length_map, List.length_range, Nat.le_refl]
  have records : validateRecords sampleFormats [] pastLedger.operations = .ok () := by
    rw [pastLedger_operations]
    exact pastRecords_valid maxOperations 0 [] (Nat.le_of_eq (Nat.zero_add _)) fun _ => nofun
  simp only [GitLedger.validate, decide_eq_true fits, records]
  rfl

section Restore

variable {answers : Nat → Answers} (still : ∀ asked, answers asked = sampleAnswers "id")
include still

theorem restoreRecord_past {count : Nat} (bound : count < maxOperations) :
    Ensures answers (Bridge.Past · count) (restoreRecord sampleFormats (pastRecord count))
      (fun _ bridge => bridge.Past (count + 1)) (fun _ => False) := by
  refine .known fun bridge past => ?_
  obtain ⟨unknown, next⟩ := past.next bound
  have fresh : bridge.operations.contains (pastRecord count).id = false := unknown
  refine .thenCheckOr (fun _ => nofun) fun _ _ => .thenCheckOr (fun _ => nofun) fun _ _ =>
    .thenCheckOr (fun _ => nofun) fun _ _ => .thenCheckOr (fun _ => nofun) fun _ _ =>
    .thenCheckOr (fun _ => nofun) fun _ _ => .thenCheckOr (fun _ => nofun) fun _ _ => ?_
  refine .thenRead (.thenCheckOr (fun error failed => ?_) fun _ _ => .thenAsk fun asked =>
    .updated ?_)
  · rw [fresh] at failed
    cases failed
  · rw [still, past.host]
    exact next

theorem restoreRecords_past : ∀ (rest count : Nat), count + rest ≤ maxOperations →
    Ensures answers (Bridge.Past · count)
      (((List.range' count rest).map pastRecord).forM (restoreRecord sampleFormats))
      (fun _ bridge => bridge.Past (count + rest)) (fun _ => False) := by
  intro rest
  induction rest with
  | zero => exact fun _ _ => .value fun _ past => past
  | succ rest inductionHypothesis =>
    intro count bound
    refine (restoreRecord_past still (by omega)).bind fun _ => ?_
    rw [show count + (rest + 1) = count + 1 + rest by omega]
    exact inductionHypothesis (count + 1) (by omega)

/-- Opening on a ledger of the past restores all of it. -/
theorem openBridge_past {count : Nat} (bound : count ≤ maxOperations) {ledger : GitLedger}
    {bridge : Bridge} (stored : bridge.durable = [ledger])
    (records : ledger.operations = (List.range' 0 count).map pastRecord)
    (valid : ledger.validate sampleFormats = .ok ()) (empty : bridge.Past 0) :
    Ensures answers (· = bridge) (openBridge sampleFormats)
      (fun _ last => last.Past count) (fun _ => False) := by
  have all := restoreRecords_past still count 0 (by omega)
  rw [Nat.zero_add, ← records] at all
  have restored : Ensures answers (· = bridge) (restoreLedger sampleFormats)
      (fun _ last => last.Past count) (fun _ => False) := by
    refine .thenAsk fun asked => .thenCheckOr (fun error failed => ?_) fun _ _ => .thenRead ?_
    · rw [still] at failed
      cases failed
    · rw [stored]
      refine .thenCheckOr (fun error failed => ?_) fun _ _ => .tail all empty
      rw [valid] at failed
      cases failed
  have created : Ensures answers (· = bridge) (newBridge sampleFormats)
      (fun _ last => last.Past count) (fun _ => False) := by
    refine restored.bind fun _ => .known fun last past => .thenAsk fun asked => ?_
    rw [still]
    exact .updated ⟨past.host, past.size, past.restored, past.known, past.plans, past.alive⟩
  exact created.bind fun _ => .known fun last past =>
    .updated ⟨past.host, past.size, past.restored, past.known, past.plans, past.alive⟩

end Restore

/-- A host starts on a ledger of the past. -/
theorem openDisk_past {count : Nat} (bound : count ≤ maxOperations) {ledger : GitLedger}
    (records : ledger.operations = (List.range' 0 count).map pastRecord)
    (valid : ledger.validate sampleFormats = .ok ()) :
    (openDisk sampleFormats "host" [ledger] fun _ => sampleAnswers "id").result = .ok () ∧
      (openDisk sampleFormats "host" [ledger] fun _ => sampleAnswers "id").state.Past count := by
  have empty : (Bridge.onDisk "host" .new [ledger]).Past 0 :=
    ⟨rfl, rfl, fun _ => nofun, fun id operation found => by simp [Bridge.onDisk] at found, rfl, rfl⟩
  have opens := @openBridge_past (fun _ => sampleAnswers "id") (fun _ => rfl) _ bound _ _ rfl
    records valid empty
  obtain ⟨⟨⟩, opened, past⟩ := opens.succeeds 0 rfl
  exact ⟨opened, past⟩

theorem World.opened_bridge (bridge : Bridge) (revisions : PathBuf → Revision) :
    (World.opened bridge revisions).bridge = bridge := rfl

theorem pastWorld_past : pastWorld.bridge.Past maxOperations := by
  rw [pastWorld, World.opened_bridge]
  exact (openDisk_past (Nat.le_refl _) pastLedger_operations pastLedger_valid).2

theorem Bridge.Past.makesRoom {bridge : Bridge} (past : bridge.Past maxOperations) :
    bridge.MakesRoom "plan" 0 false (.ok ()) := by
  have idle : bridge.occupied = 0 := by
    simp only [Bridge.occupied, List.length_eq_zero_iff, List.filter_eq_nil_iff]
    rintro ⟨id, operation⟩ listed
    obtain ⟨index, -, -, rfl⟩ := past.known id operation (by simpa using listed)
    simp [Operation.active, GitRecord.restored, pastRecord, Operation.new]
  refine ⟨⟨rfl, past.alive⟩, ?_, rfl, by simp [idle, maxTerminals], Nat.le_of_eq past.size.symm,
    pastId 0, _, past.restored 0 (by decide), rfl⟩
  by_contra held
  obtain ⟨operation, held⟩ := Option.ne_none_iff_exists'.mp held
  obtain ⟨index, -, same, -⟩ := past.known _ _ held
  have short := congrArg String.length same
  simp only [pastId, String.length_singleton] at short
  exact absurd short (by decide)

/-- Nobody has made a plan. -/
theorem Bridge.Past.stray {answers : Nat → Answers} {bridge : Bridge} {count shells : Nat}
    (past : bridge.Past count) :
    Ensures answers (· = bridge) (admission "client" "plan" shells) (fun _ _ => False)
      (fun _ => True) := by
  refine .thenAsk fun asked => .thenUpdate (.thenRead (.thenCheck trivial fun _ _ => ?_))
  have capacity : Ensures answers (· = bridge.prune (answers asked).now) operationCapacity
      (fun _ last => last.plans = ∅) (fun _ => True) := by
    have pruned : (bridge.prune (answers asked).now).plans = ∅ := by
      simp only [Bridge.prune, past.plans]
      rfl
    exact .thenRead (.branch (fun _ => .thenCheck trivial fun victim _ => .updated pruned)
      fun _ => .done pruned)
  refine .thenCall capacity rfl fun _ last none => .thenRead ?_
  rw [none]
  exact .thenCheckOr (fun _ _ => trivial) fun plan found => by simp [context] at found

theorem Bridge.Past.refuses {bridge : Bridge} (past : bridge.Past maxOperations) :
    ∃ error, (request sampleFormats "client" 0 false (.ok none) (.execute "plan" 24 80)
      (fun _ => sampleAnswers "id") 0 bridge).result = .error error := by
  have executing : Ensures (fun _ => sampleAnswers "id") (· = bridge)
      (execute "client" "plan" 24 80 0) (fun _ _ => False) (fun _ => True) := by
    refine .thenRead ?_
    rw [past.makesRoom.unknown]
    refine .thenAsk fun _ => .thenCheck trivial fun _ _ => ?_
    exact .thenCall past.stray rfl fun _ _ => False.elim
  have ends : Ensures (fun _ => sampleAnswers "id") (· = bridge)
      (request sampleFormats "client" 0 false (.ok none) (.execute "plan" 24 80))
      (fun _ _ => False) (fun _ => True) :=
    .thenCheck trivial fun _ _ => .thenRead (.thenCheck trivial fun _ _ =>
      .thenCall executing rfl fun _ _ => False.elim)
  cases answered : (request sampleFormats "client" 0 false (.ok none) (.execute "plan" 24 80)
      (fun _ => sampleAnswers "id") 0 bridge).result with
  | ok reply => exact (ends.returned rfl answered).elim
  | error error => exact ⟨error, rfl⟩

/-- A request to execute a plan that nobody has made is refused, and an operation of the past
    is gone. -/
theorem refusal_forgets_operation :
    (lifeSystem sampleFormats).Reachable (.up pastWorld) ∧
      strayExecute.result.isOk = false ∧ ¬ pastWorld.bridge.Unchanged 0 strayExecute.state := by
  refine ⟨⟨.down [pastLedger], [_], Nat.le_refl 1, System.Run.single (.opened
    (fun _ => sampleRevision)
    (openDisk_past (Nat.le_refl _) pastLedger_operations pastLedger_valid).1)⟩, ?_⟩
  obtain ⟨error, refused⟩ := pastWorld_past.refuses
  refine ⟨by rw [strayExecute, refused]; rfl, fun unchanged => ?_⟩
  rcases executeRequest_refused.error refused with ⟨kept, -⟩ | ⟨-, old, operation, found, gone⟩
  · exact kept pastWorld_past.makesRoom
  · have held := unchanged.operations old
    rw [found, strayExecute, gone] at held
    cases held

end Idk.Git
