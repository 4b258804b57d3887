import Idk.Host.World
import Idk.Verified.Host.Asked
import Idk.Verified.Host.Defaults

/-!
# What one step makes of the default-open batches

`Fate` says once what can become of a batch, and what is to be remembered of it: the calls of
`start_saved` that are made for it, and that it is continued.

**Main result:** `World.Step.advances`.
-/

namespace Idk.Host

open Idk.Logic
open Idk.Logic.Procedure (Stays Ensures)
open Actor

variable {isUuid : IsUuid}

/-! ## What a step makes of a batch -/

/-- What is remembered of a batch. -/
inductive Entry where
  | attempted (attempt : Attempt)
  | continued

variable (isUuid) in
/-- The calls of the tick with these answers. -/
def Actor.attempts (actor : Actor) (answers : Nat → HostAnswers) : List (String × Attempt) :=
  match (tickTraced isUuid answers 0 actor).result with
  | .ok attempts => attempts
  | .error _ => []

/-- What is added to the history of a batch that is asked to continue. -/
def Actor.continuing (actor : Actor) (id other : String) : List Entry :=
  if id = other ∧ actor.batches[other]?.any (·.info.state == .paused) then [.continued] else []

variable (isUuid) in
/-- What the event adds to the history of the batch with this id. -/
def HostEvent.entries (event : HostEvent) (actor : Actor) (id : String) : List Entry :=
  match event with
  | .ticked answers => (attemptsFor id (actor.attempts isUuid answers)).map .attempted
  | .requested _ (.continueDefaults name) _ => actor.continuing name id
  | _ => []

/-- What can become of the batch with this id, and what is added to its history; `new` says that
    the id is drawn on the way. -/
inductive Fate (isUuid : IsUuid) (new : Prop) (id : String) :
    Option Batch → List Entry → Option Batch → Prop where
  | absent : Fate isUuid new id none [] none
  | kept {batch : Batch} : Fate isUuid new id (some batch) [] (some batch)
  | evicted {batch : Batch} (closed : batch.info.state.isOpen = false) :
      Fate isUuid new id (some batch) [] none
  | born {definition : Model.Project} (drawn : new) (valid : definition.validate isUuid = .ok ()) :
      Fate isUuid new id none []
        (some ⟨⟨id, definition.id, .running, [], defaultsOf definition, none, ∅⟩, none⟩)
  | ticked {batch last : Batch} {attempt : Option Attempt} (ticked : batch.Ticked last attempt) :
      Fate isUuid new id (some batch) (attempt.toList.map .attempted) (some last)
  | continued {batch : Batch} (paused : batch.info.state = .paused) :
      Fate isUuid new id (some batch) [.continued]
        (some ⟨{ batch.info with waitingSession := none, state := .running }, none⟩)
  | cancelled {batch : Batch} : Fate isUuid new id (some batch) [] (some (cancelBatch batch))

namespace Actor

/-- The id has been drawn. -/
def Known (actor : Actor) (id : String) : Prop :=
  ∃ index < actor.nextId, actor.ids index = id

/-- The id is drawn between the two. -/
def Drew (before after : Actor) (id : String) : Prop :=
  ∃ index, before.nextId ≤ index ∧ index < after.nextId ∧ before.ids index = id

end Actor

/-- What a step makes of all batches. -/
structure Advances (isUuid : IsUuid) (before : Actor) (entries : String → List Entry)
    (after : Actor) : Prop where
  ids : after.ids = before.ids
  nextId : before.nextId ≤ after.nextId
  closing : before.quiescing = true → after.quiescing = true
  fate : ∀ id : String,
    Fate isUuid (before.Drew after id) id before.batches[id]? (entries id) after.batches[id]?

theorem Fate.same {new : Prop} {id : String} (batch : Option Batch) :
    Fate isUuid new id batch [] batch := by
  cases batch with
  | none => exact .absent
  | some batch => exact .kept

theorem Beside.advances {before after : Actor} (beside : Beside before after) :
    Advances isUuid before (fun _ => []) after where
  ids := beside.ids
  nextId := beside.nextId
  closing closed := beside.quiescing.trans closed
  fate id := by
    rw [beside.batches]
    exact .same _

/-- What touches no batch. -/
theorem advances_of_beside {α : Type} {op : Act α} (stays : Stays Beside op) (actor : Actor)
    (answers : Nat → HostAnswers) :
    Advances isUuid actor (fun _ => []) (actor.after op answers) :=
  Beside.advances (stays answers 0 actor)

/-! ### Ticks -/

/-- The calls of a tick, and what it makes of the batches. -/
theorem tick_attempts (actor : Actor) (answers : Nat → HostAnswers) :
    (actor.attempts isUuid answers = [] ∧ Beside actor (actor.after (tick isUuid) answers)) ∨
    Draws actor (actor.after (tick isUuid) answers) ∧
      (∀ id : String, TickedAt id actor.batches[id]? (actor.after (tick isUuid) answers).batches[id]?
        (actor.attempts isUuid answers)) ∧
      (actor.quiescing = true → actor.attempts isUuid answers = []) := by
  have ends := @tickTraced_all isUuid answers actor 0 actor rfl
  have traced : actor.after (tick isUuid) answers = (tickTraced isUuid answers 0 actor).state := by
    rw [Actor.after, ← tickTraced_erases]
    exact Procedure.map_state _ _ _ _ _
  rw [traced]
  unfold Actor.attempts
  cases run : tickTraced isUuid answers 0 actor with
  | mk result asked last =>
    rw [run] at ends
    cases result with
    | error error => exact .inl ⟨rfl, ends⟩
    | ok attempts => exact .inr ends

theorem ticked_advances (actor : Actor) (answers : Nat → HostAnswers) :
    Advances isUuid actor ((HostEvent.ticked answers).entries isUuid actor)
      (actor.after (tick isUuid) answers) := by
  obtain ⟨none_, beside⟩ | ⟨draws, each, -⟩ := @tick_attempts isUuid actor answers
  · have nothing : (HostEvent.ticked answers).entries isUuid actor = fun _ => [] := by
      funext id
      simp [HostEvent.entries, none_, attemptsFor]
    rw [nothing]
    exact beside.advances
  · refine ⟨draws.ids, draws.nextId, fun closed => draws.quiescing.trans closed, fun id => ?_⟩
    have ticked := each id
    simp only [HostEvent.entries]
    cases found : actor.batches[id]? with
    | none =>
      rw [found] at ticked
      obtain ⟨gone, none_⟩ := ticked
      rw [gone, none_]
      exact .absent
    | some batch =>
      rw [found] at ticked
      obtain ⟨after, attempt, there, ticked, calls⟩ := ticked
      rw [there, calls]
      exact .ticked ticked

/-- In a shutdown a tick starts nothing. -/
theorem attempts_closing {actor : Actor} (closing : actor.quiescing = true)
    (answers : Nat → HostAnswers) : actor.attempts isUuid answers = [] := by
  obtain ⟨none_, -⟩ | ⟨-, -, nothing⟩ := @tick_attempts isUuid actor answers
  · exact none_
  · exact nothing closing

/-! ### Requests -/

theorem Fate.mono {new later : Prop} {id : String} {before after : Option Batch}
    {entries : List Entry} (fate : Fate isUuid new id before entries after) (more : new → later) :
    Fate isUuid later id before entries after := by
  cases fate with
  | absent => exact .absent
  | kept => exact .kept
  | evicted closed => exact .evicted closed
  | born drawn valid => exact .born (more drawn) valid
  | ticked ticked => exact .ticked ticked
  | continued paused => exact .continued paused
  | cancelled => exact .cancelled

theorem Advances.beside {before middle after : Actor} {entries : String → List Entry}
    (advances : Advances isUuid before entries middle) (beside : Beside middle after) :
    Advances isUuid before entries after where
  ids := beside.ids.trans advances.ids
  nextId := advances.nextId.trans beside.nextId
  closing closed := beside.quiescing.trans (advances.closing closed)
  fate id := by
    rw [beside.batches]
    refine (advances.fate id).mono ?_
    rintro ⟨index, from_, below, same⟩
    exact ⟨index, from_, below.trans_le beside.nextId, same⟩

section Requests

variable {answers : Nat → HostAnswers} {actor : Actor}

theorem evictBatch_fate (batches : BTreeMap Batch) (new : Prop) (id : String) :
    Fate isUuid new id batches[id]? [] (evictBatch batches)[id]? := by
  unfold evictBatch
  split
  · split
    · rename_i key batch chosen
      have member := Std.TreeMap.mem_toList_iff_getElem?_eq_some.mp (List.mem_of_find?_eq_some chosen)
      have closed : batch.info.state.isOpen = false := by simpa using List.find?_some chosen
      rw [erase_get]
      split
      · rename_i same
        rw [← same, member]
        exact .evicted closed
      · exact .same _
    · exact .same _
  · exact .same _

theorem startDefaults_advances (loads : actor.Loads isUuid answers)
    (fresh : actor.batches[actor.ids actor.nextId]? = none) (project : String) :
    Ensures answers (· = actor) (startDefaults project)
      (fun _ => Advances isUuid actor fun _ => []) (Advances isUuid actor fun _ => []) := by
  have start : Advances isUuid actor (fun _ => []) actor := (refl actor : Beside actor actor).advances
  refine .thenRead (.thenCheck start fun _ _ => ?_)
  split
  · exact .done start
  have evicted : Advances isUuid actor (fun _ => [])
      { actor with batches := evictBatch actor.batches } :=
    ⟨rfl, le_rfl, id, fun id => evictBatch_fate _ _ id⟩
  refine .thenUpdate (.thenRead (.thenCheck evicted fun _ _ => .thenAsk fun asked => ?_))
  refine .thenCheck evicted fun projects loaded => .thenCheck evicted fun definition chosen => ?_
  refine .thenCall ((newId_ends _).relax fun _ => False.elim) rfl ?_
  rintro id _ ⟨rfl, rfl⟩
  have found := context_eq_ok.mp chosen
  have valid := (loads asked projects loaded definition (List.mem_of_find?_eq_some found)).1
  have named : definition.id = project := by simpa using List.find?_some found
  refine .thenUpdate (.done ⟨rfl, Nat.le_succ _, fun closed => closed, fun id => ?_⟩)
  rw [insert_get]
  split
  · rename_i same
    cases same
    rw [fresh, ← named]
    exact .born ⟨actor.nextId, le_rfl, Nat.lt_succ_self _, rfl⟩ valid
  · exact evictBatch_fate _ _ id

/-- One batch is replaced. -/
theorem setBatch_advances {id : String} {batch last : Batch} {entries : String → List Entry}
    (found : actor.batches[id]? = some batch)
    (fate : Fate isUuid False id (some batch) (entries id) (some last))
    (others : ∀ other, id ≠ other → entries other = []) :
    Advances isUuid actor entries { actor with batches := actor.batches.insert id last } := by
  refine ⟨rfl, le_rfl, fun closed => closed, fun other => ?_⟩
  rw [insert_get]
  split
  · rename_i same
    cases same
    rw [found]
    exact fate.mono False.elim
  · rename_i apart
    rw [others other apart]
    exact .same _

/-- The actor that closes this project, or the whole host. -/
def Actor.closing (actor : Actor) (project : Option String) : Actor :=
  { actor with
    batches := actor.batches.map fun _ batch =>
      if project.all (· == batch.info.projectId) then cancelBatch batch else batch
    quiescing := actor.quiescing || project.isNone }

theorem closing_advances (actor : Actor) (project : Option String) :
    Advances isUuid actor (fun _ => []) (actor.closing project) := by
  refine ⟨rfl, le_rfl, fun closed => by simp [Actor.closing, closed], fun id => ?_⟩
  simp only [Actor.closing, Std.TreeMap.getElem?_map]
  cases actor.batches[id]? with
  | none => exact .absent
  | some batch =>
    simp only [Option.map_some]
    split
    · exact .cancelled
    · exact .kept

/-- An accepted close begins before anything else is done. -/
theorem closeMany_ends (project : Option String) (sessions : List String) (force : Bool) :
    Ensures answers (· = actor) (closeMany isUuid project sessions force)
      (fun _ => Beside (actor.closing project))
      (fun last => last = actor ∨ Beside (actor.closing project) last) := by
  refine .thenRead (.thenCheck (.inl rfl) fun _ _ => .thenCheck (.inl rfl) fun _ _ => ?_)
  refine .thenUpdate ((Stays.ends ?_).relax fun _ => .inr)
  refine (closeEach_beside _ _ _).bind fun errors => persist_beside.attempt.bind fun saved => ?_
  have noted (sessions : List String) : Stays Beside (noteUnsaved sessions) := besides fun _ => rfl
  cases saved with
  | ok done => exact .bind .value fun _ => .bind .current fun _ => .value
  | error error =>
    exact (noted _).bind fun _ => .bind .value fun _ => .bind .current fun _ => .value

/-- The requests that are about the batches. -/
def Request.batched : Request → Bool
  | .startDefaults _ | .continueDefaults _ | .cancelDefaults _ | .closeProject .. | .shutdown .. =>
    true
  | _ => false

/-- Every other request is beside the batches. -/
theorem execute_beside (formats : Git.GitFormats) (client : String) {request : Request}
    (plain : request.batched = false) : Stays Beside (execute isUuid formats client request) := by
  cases request with
  | startDefaults | continueDefaults | cancelDefaults | closeProject | shutdown => cases plain
  | hello => exact .value
  | list project => exact .bind .current fun _ => value_beside _
  | definition session =>
    refine (slotOf_beside session).bind fun slot => ?_
    cases slot.purpose with
    | terminal definition => exact .bind .lift fun _ => .value
    | run | editor => exact .fail
  | start project terminal reopen =>
    exact (startSaved_beside _ _ _).bind fun _ => value_beside _
  | startTransient project terminal reopen =>
    exact (startTransient_beside _ _ _).bind fun _ => value_beside _
  | batch id => exact .bind (.bind .current fun _ => .lift) fun _ => .value
  | attach session takeover => exact attachTo_beside _ _ _
  | detach session epoch =>
    exact (slotOf_beside session).bind fun _ => .bind .lift fun _ => updating (fun _ => rfl) <|
      value_beside _
  | snapshot session since =>
    exact (slotOf_beside session).bind fun _ => .bind .answer fun _ => .bind .lift fun _ =>
      value_beside _
  | input session data epoch => exact inputTo_beside _ _ _ _
  | resize session epoch | scroll session epoch | search session epoch =>
    exact (onTerminal_beside _ _ _).bind fun _ => .bind .lift fun _ => .value
  | close session epoch force => exact closeSession_beside _ _ _ _
  | previewClose project => exact previewClose_beside _
  | run request => exact (runRequest_beside _ _).bind fun _ => .value
  | git request =>
    exact .bind .current fun _ => .bind .answer fun _ => (onGit_beside _).bind fun _ => .value

theorem batchOf_ends (id : String) :
    Ensures answers (· = actor) (batchOf id)
      (fun batch last => last = actor ∧ actor.batches[id]? = some batch)
      (fun last => last = actor ∧ actor.batches[id]? = none) := by
  refine .thenRead (.checkedOr (fun error failed => ⟨rfl, ?_⟩) fun batch found => ⟨rfl, ?_⟩)
  · cases found : actor.batches[id]? with
    | none => rfl
    | some batch =>
      rw [found] at failed
      cases failed
  · exact context_eq_ok.mp found

theorem continuing_other {id other : String} (apart : id ≠ other) :
    actor.continuing id other = [] := if_neg fun both => apart both.1

/-- A batch that is not paused is not continued. -/
theorem continuing_idle {id : String}
    (idle : ∀ batch, actor.batches[id]? = some batch → batch.info.state ≠ .paused) :
    actor.continuing id = fun _ => [] := by
  funext other
  refine if_neg ?_
  rintro ⟨rfl, paused⟩
  obtain ⟨batch, found, state⟩ := (Option.any_eq_true _ _).mp paused
  exact idle batch found (by simpa using state)

theorem continueDefaults_advances (id : String) :
    Ensures answers (· = actor) (continueDefaults id)
      (fun _ => Advances isUuid actor (actor.continuing id))
      (Advances isUuid actor (actor.continuing id)) := by
  have ignored (idle : ∀ batch, actor.batches[id]? = some batch → batch.info.state ≠ .paused) :
      Advances isUuid actor (actor.continuing id) actor := by
    rw [continuing_idle idle]
    exact Beside.advances (refl actor)
  refine .thenCall ((batchOf_ends id).relax ?_) rfl ?_
  · rintro _ ⟨rfl, none_⟩
    exact ignored fun batch found => by rw [none_] at found; cases found
  rintro batch last ⟨same, found⟩
  cases same
  refine .thenCheckOr (fun error refused => ignored fun other there paused => ?_) fun _ checked => ?_
  · rw [found] at there
    cases there
    rw [paused] at refused
    cases refused
  · have paused : batch.info.state = .paused := by simpa using ensure_eq_ok.mp checked
    refine .thenUpdate (.done (setBatch_advances found ?_ fun _ => continuing_other))
    have entries : actor.continuing id id = [.continued] := by
      simp [Actor.continuing, found, paused]
    rw [entries]
    exact .continued paused

theorem cancelDefaults_ends (formats : Git.GitFormats) (client id : String) :
    Ensures answers (· = actor) (execute isUuid formats client (.cancelDefaults id))
      (fun _ last => ∃ batch, actor.batches[id]? = some batch ∧
        last = { actor with batches := actor.batches.insert id (cancelBatch batch) })
      (· = actor) := by
  refine .thenCall ((batchOf_ends id).relax fun _ ends => ends.1) rfl ?_
  rintro batch last ⟨same, found⟩
  cases same
  exact .thenUpdate (.done ⟨batch, found, rfl⟩)

/-- A whole request, of what it does. -/
theorem executed_advances {formats : Git.GitFormats} {client : String} {request : Request}
    {entries : String → List Entry}
    (ends : Ensures answers (· = actor) (execute isUuid formats client request)
      (fun _ => Advances isUuid actor entries) (Advances isUuid actor entries)) :
    Advances isUuid actor entries (actor.after (execute isUuid formats client request) answers) :=
  ends.last 0 rfl

theorem closes_advances (project : Option String) (sessions : List String) (force : Bool) :
    Ensures answers (· = actor) (closeMany isUuid project sessions force)
      (fun _ => Advances isUuid actor fun _ => []) (Advances isUuid actor fun _ => []) := by
  have closing := @closing_advances isUuid actor project
  refine (closeMany_ends project sessions force).consequence (fun _ => id) ?_ ?_
  · exact fun _ _ beside => closing.beside beside
  · rintro last (rfl | beside)
    · exact Beside.advances (refl _)
    · exact closing.beside beside

theorem execute_advances (formats : Git.GitFormats) (client : String) (request : Request)
    (loads : actor.Loads isUuid answers) (fresh : actor.batches[actor.ids actor.nextId]? = none) :
    Advances isUuid actor ((HostEvent.requested client request answers).entries isUuid actor)
      (actor.after (execute isUuid formats client request) answers) := by
  cases request with
  | startDefaults project =>
    refine executed_advances (.thenCall (startDefaults_advances loads fresh project) rfl ?_)
    exact fun _ _ advances => .done advances
  | continueDefaults name =>
    refine executed_advances (.thenCall (continueDefaults_advances name) rfl ?_)
    exact fun _ _ advances => .done advances
  | cancelDefaults name =>
    refine executed_advances ((cancelDefaults_ends formats client name).consequence (fun _ => id) ?_ ?_)
    · rintro _ _ ⟨batch, found, rfl⟩
      exact setBatch_advances found .cancelled fun _ _ => rfl
    · rintro _ rfl
      exact Beside.advances (refl _)
  | closeProject project sessions force =>
    refine executed_advances (.thenCall (closes_advances (some project) sessions force) rfl ?_)
    exact fun _ _ advances => .done advances
  | shutdown sessions force =>
    refine executed_advances (.thenCall (closes_advances none sessions force) rfl ?_)
    exact fun _ _ advances => .done advances
  | _ => exact advances_of_beside (execute_beside formats client rfl) actor answers

end Requests

/-! ### Every step -/

theorem World.Step.advances {formats : Git.GitFormats} {world after : World} {event : HostEvent}
    (step : World.Step isUuid formats world event after)
    (fresh : world.actor.batches[world.actor.ids world.actor.nextId]? = none) :
    Advances isUuid world.actor (event.entries isUuid world.actor) after.actor := by
  cases step with
  | requested valid loads foreign => exact execute_advances _ _ _ loads fresh
  | ticked loads => exact ticked_advances _ _
  | began => exact Beside.advances ⟨rfl, rfl, rfl, Nat.le_succ _⟩
  | _ => exact Beside.advances (.of_shared rfl)

end Idk.Host
