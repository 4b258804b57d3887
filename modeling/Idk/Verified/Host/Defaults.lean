import Idk.Verified.Host.Beside
import Idk.Verified.Host.Moves

/-!
# Default-open batches in one tick

`tickTraced` is `tick`, with the calls of `start_saved` that it makes for batches.

**Main results:**

- `tickTraced_erases`: without the calls it is `tick`.
- `tickTraced_all`: what a tick makes of every batch, with the calls for it.
-/

namespace Idk.Host

open Idk.Logic
open Idk.Logic.Procedure (Stays Returns Ensures current update answer attempt)
open Actor

/-- A call of `start_saved` for a batch: the session that the batch has waited for with its slot
    at that moment, and what has come of the call. -/
structure Attempt where
  terminal : String
  waited : Option (String × Option Slot)
  outcome : Result SessionInfo

variable (isUuid : IsUuid)

/-! ## The calls of a tick -/

/-- `Batch.next`, with its call. -/
def Batch.nextTraced (batch : Batch) (waited : Option (String × Option Slot)) :
    Act (Batch × Option Attempt) := do
  let batch := { batch with info.waitingSession := none, waitingSince := none }
  match batch.info.remaining with
  | [] => return ({ batch with info.state := .complete }, none)
  | terminal :: remaining =>
    let batch := { batch with info.remaining := remaining }
    match ← attempt (startSaved isUuid batch.info.projectId terminal false) with
    | .ok info =>
      let time ← now
      return ({
        info := { batch.info with
          sessions := batch.info.sessions ++ [info.sessionId]
          waitingSession := some info.sessionId }
        waitingSince := some time }, some ⟨terminal, waited, .ok info⟩)
    | .error error =>
      return (batch.note terminal (safeError error), some ⟨terminal, waited, .error error⟩)

/-- `Batch.tick`, with its call. -/
def Batch.tickTraced (batch : Batch) : Act (Batch × Option Attempt) := do
  if batch.info.state ≠ .running then return (batch, none)
  else
    match batch.info.waitingSession with
    | none => batch.nextTraced isUuid none
    | some session =>
      let actor ← current
      let waited := some (session, actor.slots[session]?)
      match waitingFor session actor.slots[session]? with
      | .ready => batch.nextTraced isUuid waited
      | .failed terminal error => (batch.note terminal error).nextTraced isUuid waited
      | .longer =>
        let time ← now
        if batch.waitingSince.any (5000 ≤ time - ·) then
          return ({ batch with info.state := .paused }, none)
        else return (batch, none)

/-- The loop of `tickBatches`, with the calls for each batch. -/
def tickEachTraced : List (String × Batch) → Act (List (String × Attempt))
  | [] => return []
  | (id, batch) :: rest => do
    let (after, attempt) ← batch.tickTraced isUuid
    setBatch id after
    let others ← tickEachTraced rest
    return attempt.toList.map (id, ·) ++ others

/-- `startBatches`, with the calls. -/
def startBatchesTraced : Act (List (String × Attempt)) := do
  let actor ← current
  let time ← now
  if !actor.quiescing && 100 ≤ time - actor.lastBatchTick then
    update fun actor => { actor with lastBatchTick := time }
    let actor ← current
    tickEachTraced isUuid actor.batches.toList
  else return []

/-- What comes before the batches in a tick. -/
def tickOthers : Act Unit := do
  pollWorkers isUuid
  let exited ← tickSlots
  finishRuns
  scheduleChildInventory
  evictScreens
  let retired ← retireRuns
  forgetDefinitions
  saveTick isUuid (exited || retired)

/-- `tick`, with the calls. -/
def tickTraced : Act (List (String × Attempt)) := do
  tickOthers isUuid
  startBatchesTraced isUuid

variable {isUuid}

theorem nextTraced_erases (batch : Batch) (waited : Option (String × Option Slot)) :
    Prod.fst <$> batch.nextTraced isUuid waited = batch.next isUuid := by
  obtain ⟨⟨id, project, state, sessions, remaining, waiting, failures⟩, since⟩ := batch
  cases remaining with
  | nil => rfl
  | cons terminal remaining =>
    simp only [Batch.nextTraced, Batch.next, map_bind]
    refine bind_congr fun outcome => ?_
    cases outcome with
    | ok info => simp only [map_bind, map_pure]
    | error error => rfl

theorem tickTraced_batch (batch : Batch) :
    Prod.fst <$> batch.tickTraced isUuid = batch.tick isUuid := by
  unfold Batch.tickTraced Batch.tick
  split
  · rfl
  · cases batch.info.waitingSession with
    | none => exact nextTraced_erases _ _
    | some session =>
      simp only [map_bind]
      refine bind_congr fun actor => ?_
      cases waitingFor session actor.slots[session]? with
      | ready => exact nextTraced_erases _ _
      | failed terminal error => exact nextTraced_erases _ _
      | longer =>
        simp only [map_bind]
        refine bind_congr fun time => ?_
        split <;> rfl

theorem tickEachTraced_erases (entries : List (String × Batch)) :
    (fun _ => ()) <$> tickEachTraced isUuid entries =
      entries.forM fun entry => entry.2.tick isUuid >>= setBatch entry.1 := by
  induction entries with
  | nil => rfl
  | cons entry rest inductionHypothesis =>
    have one : (entry :: rest).forM (fun entry => entry.2.tick isUuid >>= setBatch entry.1) =
        (entry.2.tick isUuid >>= setBatch entry.1) >>= fun _ =>
          rest.forM fun entry => entry.2.tick isUuid >>= setBatch entry.1 := rfl
    rw [one, ← inductionHypothesis, ← tickTraced_batch]
    simp only [tickEachTraced, map_bind, bind_map_left, bind_assoc, map_pure]
    rfl

/-- The calls are only looked at. -/
theorem tickTraced_erases : (fun _ => ()) <$> tickTraced isUuid = tick isUuid := by
  have batches : (fun _ => ()) <$> startBatchesTraced isUuid = startBatches isUuid := by
    simp only [startBatchesTraced, startBatches, tickBatches, map_bind]
    congr 1
    funext actor
    congr 1
    funext time
    split
    · simp only [map_bind, tickEachTraced_erases]
    · rfl
  rw [tickTraced, map_bind, batches]
  simp only [tick, tickOthers, bind_assoc]

/-! ## What a call returns -/

/-- The session is one of this terminal. -/
structure SessionInfo.IsOf (info : SessionInfo) (project terminal : String) : Prop where
  project : info.projectId = project
  terminal : info.terminalId = terminal

/-- Only a session of this terminal is returned. -/
abbrev Shows (project terminal : String) (op : Act SessionInfo) : Prop :=
  Returns (fun info : SessionInfo => info.IsOf project terminal) op

theorem checkReopen_some {slot : Slot} {reopen : Bool} {info : SessionInfo}
    (checked : checkReopen slot reopen = .ok (some info)) : info = slot.info := by
  unfold checkReopen at checked
  split at checked
  · obtain ⟨_, _, same⟩ := bind_eq_ok.mp checked
    cases same
    rfl
  · obtain ⟨_, _, same⟩ := bind_eq_ok.mp checked
    cases same

theorem startNew_shows (project : String) (terminal : Model.TerminalDefinition)
    (previous : Option (String × Slot)) :
    Shows project terminal.id (startNew isUuid project terminal previous) := by
  refine .after fun actor => .after fun _ => .after fun _ => .after fun session => ?_
  cases previous with
  | none =>
    refine .after fun _ => .after fun outcome => ?_
    cases outcome with
    | ok done => exact .value ⟨rfl, rfl⟩
    | error error => exact .after fun _ => .after fun _ => .fail
  | some previous =>
    refine .after fun _ => .after fun _ => .after fun outcome => ?_
    cases outcome with
    | ok done => exact .value ⟨rfl, rfl⟩
    | error error => exact .after fun _ => .after fun _ => .after fun _ => .fail

theorem reopened_shows {actor : Actor} {project terminal id : String} {slot : Slot}
    {reopen : Bool} {info : SessionInfo}
    (place : actor.slotOfTerminal project terminal = some (id, slot))
    (checked : checkReopen slot reopen = .ok (some info)) : info.IsOf project terminal := by
  obtain ⟨-, same⟩ := slotOfTerminal_some place
  obtain rfl := checkReopen_some checked
  exact ⟨same.1, same.2⟩

theorem start_shows (project : String) (terminal : Model.TerminalDefinition) (reopen : Bool) :
    Shows project terminal.id (start isUuid project terminal reopen) := by
  refine .after fun actor => .after fun _ => .after fun _ => ?_
  refine .after fun _ => .after fun _ => .after fun _ => ?_
  cases place : actor.slotOfTerminal project terminal.id with
  | none => exact startNew_shows _ _ _
  | some previous =>
    refine .check fun alive checked => ?_
    cases alive with
    | some info => exact .value (reopened_shows place checked)
    | none => exact .after fun _ => startNew_shows _ _ _

/-- A saved terminal that is started is shown as itself. -/
theorem startSaved_shows (project terminal : String) (reopen : Bool) :
    Shows project terminal (startSaved isUuid project terminal reopen) := by
  have loaded : Shows project terminal (do
      let answers ← answer
      let projects ← answers.load
      let definition ← projectOf projects project
      let saved ← context (definition.terminals.find? (·.id == terminal))
        "saved terminal definition is unavailable"
      start isUuid project saved reopen : Act SessionInfo) := by
    refine .after fun answers => .after fun projects => .after fun definition => ?_
    refine .check fun saved found => ?_
    have same : saved.id = terminal := by
      simpa using List.find?_some (context_eq_ok.mp found)
    exact same ▸ start_shows project saved reopen
  refine .after fun actor => ?_
  cases place : actor.slotOfTerminal project terminal with
  | none =>
    refine .check fun alive same => ?_
    cases same
    exact loaded
  | some previous =>
    refine .check fun alive checked => ?_
    cases alive with
    | some info => exact .value (reopened_shows place checked)
    | none => exact loaded

/-! ## One batch in a tick -/

/-- The session that was waited for is initialized, unobserved, failed, ended or gone. -/
def Over (slot : Option Slot) : Prop :=
  ∀ found, slot = some found → found.isLive = false ∨
    found.info.initialization = some .failed ∨ found.info.initialization = some .ready ∨
    found.info.initialization = some .unobserved

/-- What the batch has waited for is over. -/
structure Batch.Settled (batch : Batch) (waited : Option (String × Option Slot)) : Prop where
  session : waited.map Prod.fst = batch.info.waitingSession
  ended : ∀ session slot, waited = some (session, slot) → Over slot

/-- No failure is forgotten. -/
def Fails (before after : BTreeMap String) : Prop :=
  ∀ name : String, before.contains name = true → after.contains name = true

/-- What a tick makes of a batch, and its call. -/
inductive Batch.Ticked (batch : Batch) : Batch → Option Attempt → Prop where
  | same : Ticked batch batch none
  | paused (running : batch.info.state = .running) :
      Ticked batch { batch with info.state := .paused } none
  | completed {failures : BTreeMap String} (running : batch.info.state = .running)
      (none_ : batch.info.remaining = []) (more : Fails batch.info.failures failures) :
      Ticked batch {
        info := { batch.info with
          state := .complete, waitingSession := none, failures := failures }
        waitingSince := none } none
  | started {terminal : String} {remaining : List String} {failures : BTreeMap String}
      {waited : Option (String × Option Slot)} {info : SessionInfo} {time : Nat}
      (running : batch.info.state = .running) (settled : batch.Settled waited)
      (next : batch.info.remaining = terminal :: remaining)
      (more : Fails batch.info.failures failures)
      (of : info.IsOf batch.info.projectId terminal) :
      Ticked batch {
        info := { batch.info with
          remaining := remaining, failures := failures
          sessions := batch.info.sessions ++ [info.sessionId]
          waitingSession := some info.sessionId }
        waitingSince := some time } (some ⟨terminal, waited, .ok info⟩)
  | refused {terminal error : String} {remaining : List String} {failures : BTreeMap String}
      {waited : Option (String × Option Slot)}
      (running : batch.info.state = .running) (settled : batch.Settled waited)
      (next : batch.info.remaining = terminal :: remaining)
      (more : Fails batch.info.failures failures) (noted : failures.contains terminal = true) :
      Ticked batch {
        info := { batch.info with
          remaining := remaining, failures := failures, waitingSession := none }
        waitingSince := none } (some ⟨terminal, waited, .error error⟩)

theorem fails_note (failures : BTreeMap String) (terminal error : String) :
    Fails failures (failures.insert terminal error) := by
  intro name known
  simp [Std.TreeMap.contains_insert, known]

theorem Fails.trans {first second third : BTreeMap String} (one : Fails first second)
    (two : Fails second third) : Fails first third := fun name known => two name (one name known)

section Ticks

variable {answers : Nat → HostAnswers} {actor : Actor}

/-- What becomes of the batch when it waits for nothing. -/
theorem nextTraced_ends {batch : Batch} {failures : BTreeMap String}
    {waited : Option (String × Option Slot)} (running : batch.info.state = .running)
    (settled : batch.Settled waited) (more : Fails batch.info.failures failures) (actor : Actor) :
    Ensures answers (· = actor)
      ({ batch with info.failures := failures : Batch }.nextTraced isUuid waited)
      (fun result last => batch.Ticked result.1 result.2 ∧ Beside actor last) fun _ => False := by
  obtain ⟨⟨id, project, state, sessions, remaining, waiting, known⟩, since⟩ := batch
  cases running
  cases remaining with
  | nil => exact .done ⟨.completed rfl rfl more, refl actor⟩
  | cons terminal remaining =>
    have returned := @startSaved_shows isUuid project terminal false
    refine .thenAttempt ((startSaved_beside project terminal false).ensures returned) rfl ?_ ?_
    · rintro info last ⟨of, beside⟩
      refine .thenCall ((now_ends last).relax fun _ => False.elim) rfl ?_
      rintro time _ rfl
      exact .done ⟨.started rfl settled rfl more of, beside⟩
    · intro error last beside
      refine .done ⟨?_, beside⟩
      exact .refused rfl settled rfl (more.trans (fails_note _ _ _))
        Std.TreeMap.contains_insert_self

theorem waitingFor_over {session : String} {slot : Option Slot}
    (heard : waitingFor session slot ≠ .longer) : Over slot := by
  rintro found rfl
  unfold waitingFor at heard
  dsimp only at heard
  split at heard
  · rename_i failed
    simp only [Bool.or_eq_true, Bool.not_eq_true', decide_eq_true_eq] at failed
    exact failed.imp_right .inl
  · split at heard
    · rename_i ready
      exact .inr (.inr ready)
    · exact absurd rfl heard

/-- One batch of `tick_batches`. -/
theorem tickTraced_ends (batch : Batch) (actor : Actor) :
    Ensures answers (· = actor) (batch.tickTraced isUuid)
      (fun result last => batch.Ticked result.1 result.2 ∧ Beside actor last) fun _ => False := by
  unfold Batch.tickTraced
  by_cases running : batch.info.state = .running
  swap
  · rw [if_pos running]
    exact .done ⟨.same, refl actor⟩
  rw [if_neg (not_not_intro running)]
  have known (waited : Option (String × Option Slot)) (settled : batch.Settled waited) :=
    @nextTraced_ends isUuid answers batch batch.info.failures waited running settled
      (fun _ => id) actor
  cases waits : batch.info.waitingSession with
  | none => exact known none ⟨by rw [waits]; rfl, fun _ _ same => by cases same⟩
  | some session =>
    refine .thenRead ?_
    have settled (heard : waitingFor session actor.slots[session]? ≠ .longer) :
        batch.Settled (some (session, actor.slots[session]?)) := by
      refine ⟨by rw [waits]; rfl, ?_⟩
      rintro _ _ ⟨⟩
      exact waitingFor_over heard
    dsimp only
    cases state : waitingFor session actor.slots[session]? with
    | ready => exact known _ (settled (by simp [state]))
    | failed terminal error =>
      exact nextTraced_ends running (settled (by simp [state])) (fails_note _ _ _) actor
    | longer =>
      refine .thenCall ((now_ends actor).relax fun _ => False.elim) rfl ?_
      rintro time _ rfl
      exact .branch (fun _ => .done ⟨.paused running, refl _⟩) fun _ => .done ⟨.same, refl _⟩

end Ticks

/-! ## All batches of a tick -/

/-- The ids are drawn on, and a shutdown is not begun. -/
structure Draws (before after : Actor) : Prop where
  quiescing : after.quiescing = before.quiescing
  ids : after.ids = before.ids
  nextId : before.nextId ≤ after.nextId

theorem Draws.trans {first second third : Actor} (one : Draws first second)
    (two : Draws second third) : Draws first third :=
  ⟨two.quiescing.trans one.quiescing, two.ids.trans one.ids, one.nextId.trans two.nextId⟩

theorem Beside.draws {before after : Actor} (beside : Beside before after) : Draws before after :=
  ⟨beside.quiescing, beside.ids, beside.nextId⟩

/-- The calls for one batch. -/
def attemptsFor (id : String) (attempts : List (String × Attempt)) : List Attempt :=
  (attempts.filter (·.1 == id)).map (·.2)

theorem attemptsFor_append (id : String) (first second : List (String × Attempt)) :
    attemptsFor id (first ++ second) = attemptsFor id first ++ attemptsFor id second := by
  simp [attemptsFor]

theorem attemptsFor_own (id : String) (attempt : Option Attempt) :
    attemptsFor id (attempt.toList.map (id, ·)) = attempt.toList := by
  cases attempt <;> simp [attemptsFor]

theorem attemptsFor_other {id other : String} (apart : id ≠ other) (attempt : Option Attempt) :
    attemptsFor other (attempt.toList.map (id, ·)) = [] := by
  cases attempt <;> simp [attemptsFor, apart]

/-- What a tick makes of the batch with this id. -/
def TickedAt (id : String) (before after : Option Batch) (attempts : List (String × Attempt)) :
    Prop :=
  match before with
  | none => after = none ∧ attemptsFor id attempts = []
  | some batch => ∃ last attempt, after = some last ∧ batch.Ticked last attempt ∧
      attemptsFor id attempts = attempt.toList

section Ticks

variable {answers : Nat → HostAnswers}

theorem tickEachTraced_ends {entries : List (String × Batch)}
    (distinct : (entries.map Prod.fst).Nodup) (actor : Actor) :
    Ensures answers (· = actor) (tickEachTraced isUuid entries)
      (fun attempts last => Draws actor last ∧ ∀ id : String,
        (id ∉ entries.map Prod.fst →
          last.batches[id]? = actor.batches[id]? ∧ attemptsFor id attempts = []) ∧
        ∀ batch, (id, batch) ∈ entries →
          TickedAt id (some batch) last.batches[id]? attempts) fun _ => False := by
  induction entries generalizing actor with
  | nil =>
    exact .done ⟨⟨rfl, rfl, le_rfl⟩, fun id => ⟨fun _ => ⟨rfl, rfl⟩, fun _ member => by cases member⟩⟩
  | cons entry rest inductionHypothesis =>
    obtain ⟨key, batch⟩ := entry
    rw [List.map_cons, List.nodup_cons] at distinct
    refine .thenCall (tickTraced_ends batch actor) rfl ?_
    rintro ⟨after, attempt⟩ middle ⟨ticked, beside⟩
    refine .thenUpdate (.thenCall (inductionHypothesis distinct.2 _) rfl ?_)
    rintro others last ⟨⟨quiescing, ids, nextId⟩, each⟩
    have draws : Draws middle last := ⟨quiescing, ids, nextId⟩
    refine .done ⟨beside.draws.trans draws, fun id => ⟨fun absent => ?_, fun other member => ?_⟩⟩
    · rw [List.map_cons, List.mem_cons, not_or] at absent
      obtain ⟨same, none_⟩ := (each id).1 absent.2
      refine ⟨?_, ?_⟩
      · rw [same, insert_get, if_neg fun twin => absent.1 twin.symm, beside.batches]
      · rw [attemptsFor_append, attemptsFor_other fun twin => absent.1 twin.symm, none_]
        rfl
    · obtain same | later := List.mem_cons.mp member
      · cases same
        obtain ⟨here, none_⟩ := (each key).1 distinct.1
        refine ⟨after, attempt, ?_, ticked, ?_⟩
        · rw [here, insert_get, if_pos rfl]
        · rw [attemptsFor_append, attemptsFor_own, none_, List.append_nil]
      · have apart : key ≠ id := by
          rintro rfl
          exact distinct.1 (List.mem_map.mpr ⟨_, later, rfl⟩)
        obtain ⟨final, call, found, ends, calls⟩ := (each id).2 other later
        refine ⟨final, call, found, ends, ?_⟩
        rw [attemptsFor_append, attemptsFor_other apart, calls]
        rfl

/-- What a tick does to all batches, and that nothing is called in a shutdown. -/
theorem tickTraced_all (actor : Actor) :
    Ensures answers (· = actor) (tickTraced isUuid)
      (fun attempts last => Draws actor last ∧
        (∀ id : String, TickedAt id actor.batches[id]? last.batches[id]? attempts) ∧
        (actor.quiescing = true → attempts = [])) (Beside actor) := by
  have nothing {id : String} {after : Actor} (same : after.batches = actor.batches) :
      TickedAt id actor.batches[id]? after.batches[id]? [] := by
    rw [same]
    cases actor.batches[id]? with
    | none => exact ⟨rfl, rfl⟩
    | some batch => exact ⟨batch, none, rfl, .same, rfl⟩
  have others : Stays Beside (tickOthers isUuid) :=
    pollWorkers_beside.bind fun _ => tickSlots_beside.bind fun _ => finishRuns_beside.bind fun _ =>
      scheduleChildInventory_beside.bind fun _ => evictScreens_beside.bind fun _ =>
        retireRuns_beside.bind fun _ => forgetDefinitions_beside.bind fun _ => saveTick_beside _
  refine .thenCall others.ends rfl fun _ middle beside => ?_
  refine .thenRead (.thenCall ((now_ends middle).relax fun _ => False.elim) rfl ?_)
  intro time last same
  cases same
  refine .branch (fun due => ?_) fun _ => ?_
  · simp only [Bool.and_eq_true, Bool.not_eq_true'] at due
    refine .thenUpdate (.thenRead ?_)
    have keys : (middle.batches.toList.map Prod.fst).Nodup := by
      rw [Std.TreeMap.map_fst_toList_eq_keys]
      exact Std.TreeMap.nodup_keys
    refine (tickEachTraced_ends keys _).consequence (fun _ => id) ?_ fun _ => False.elim
    rintro attempts last ⟨⟨quiescing, ids, nextId⟩, each⟩
    have draws : Draws middle last := ⟨quiescing, ids, nextId⟩
    refine ⟨beside.draws.trans draws, fun id => ?_, fun closing => ?_⟩
    · rw [← beside.batches]
      cases found : middle.batches[id]? with
      | some batch => exact (each id).2 batch (Std.TreeMap.mem_toList_iff_getElem?_eq_some.mpr found)
      | none =>
        refine ((each id).1 fun member => ?_).imp_left fun same => same.trans found
        obtain ⟨⟨_, batch⟩, there, rfl⟩ := List.mem_map.mp member
        rw [Std.TreeMap.mem_toList_iff_getElem?_eq_some.mp there] at found
        cases found
    · rw [← beside.quiescing, due.1] at closing
      cases closing
  · exact .done ⟨beside.draws, fun id => nothing beside.batches, fun _ => rfl⟩

end Ticks

end Idk.Host
