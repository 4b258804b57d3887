import Idk.Verified.Host.Moves

/-!
# Every request is a sequence of changes

**Main result:** `execute_moves`: what a request has done before it is answered or refused
is a sequence of changes from the state it was asked in.
-/

namespace Idk.Host

open Idk.Logic
open Idk.Logic.Procedure (Ensures)
open Relation (ReflTransGen)
open Actor

variable {isUuid : IsUuid} {scope : Scope} {answers : Nat → HostAnswers} {origin actor after : Actor}

theorem Ground.reached (ground : Ground isUuid scope.begun origin)
    (reached : Reached isUuid scope origin actor) : Ground isUuid scope.begun actor :=
  ground.changes reached

/-! ## Starting and default-open batches -/

theorem startTransient_opens (ground : Ground isUuid scope.begun actor) {project : String}
    {terminal : Model.TerminalDefinition}
    (startable : Startable isUuid scope actor project terminal.id) (reopen : Bool) :
    Ensures answers (· = actor) (startTransient isUuid project terminal reopen)
      (fun _ => Opens isUuid scope actor) (Opens isUuid scope actor) :=
  .thenAsk fun _ => .thenCheck .refl fun _ _ => .thenCheck .refl fun _ _ =>
    start_opens ground startable reopen

/-- Batches are changed one by one, each following itself. -/
theorem batches_kept {batches : BTreeMap Batch}
    (each : ∀ (id : String) (batch : Batch), batches[id]? = some batch →
      ∃ before, actor.batches[id]? = some before ∧ before.Follows batch actor.quiescing) :
    Opening isUuid scope actor { actor with batches := batches } :=
  @Opening.batched _ _ actor batches actor.lastBatchTick fun id batch found =>
    .inl (each id batch found)

theorem setBatch_opening {id : String} {before batch : Batch}
    (found : actor.batches[id]? = some before) (follows : before.Follows batch actor.quiescing) :
    Opening isUuid scope actor { actor with batches := actor.batches.insert id batch } := by
  refine batches_kept fun other changed there => ?_
  rw [insert_get] at there
  split at there
  · rename_i same
    cases there
    exact ⟨before, same ▸ found, follows⟩
  · exact ⟨changed, there, .refl changed _⟩

theorem evictBatch_get {batches : BTreeMap Batch} {id : String} {batch : Batch}
    (found : (evictBatch batches)[id]? = some batch) : batches[id]? = some batch := by
  unfold evictBatch at found
  split at found
  · split at found
    · rw [erase_get] at found
      split at found
      · cases found
      · exact found
    · exact found
  · exact found

theorem startDefaults_moves {project : String} (asked : scope.asked)
    (uuid : isUuid project = true) :
    Ensures answers (Reached isUuid scope origin) (startDefaults project)
      (fun _ => Reached isUuid scope origin) (Reached isUuid scope origin) := by
  refine .known fun actor reached => .thenRead (.thenCheck reached fun _ serving => ?_)
  have serving : actor.quiescing = false := by simpa using ensure_eq_ok.mp serving
  split
  · exact .done reached
  · refine .thenUpdate (.thenRead ?_)
    have evicted : Reached isUuid scope origin
        { actor with batches := evictBatch actor.batches } :=
      reached.tail (.opening (batches_kept fun id batch found =>
        ⟨batch, evictBatch_get found, .refl batch _⟩))
    refine .thenCheck evicted fun _ _ => .thenAsk fun _ => .thenCheck evicted fun _ _ => ?_
    refine .thenCheck evicted fun definition _ => ?_
    refine .thenCall ((newId_ends _).relax fun _ => False.elim) rfl ?_
    rintro id _ ⟨rfl, rfl⟩
    have drew := evicted.tail (.opening .drew)
    refine .thenUpdate (.done (drew.tail (.opening ?_)))
    refine .batched fun id batch found => ?_
    rw [insert_get] at found
    split at found
    · cases found
      exact .inr ⟨asked, serving, uuid⟩
    · exact .inl ⟨batch, found, .refl batch _⟩

theorem thenBatch {α : Type} {id : String} {next : Batch → Act α} {post : α → Actor → Prop}
    {failed : Actor → Prop} (missing : failed actor)
    (rest : ∀ batch, actor.batches[id]? = some batch →
      Ensures answers (· = actor) (next batch) post failed) :
    Ensures answers (· = actor) (batchOf id >>= next) post failed := by
  have found : Ensures answers (· = actor) (batchOf id)
      (fun batch last => last = actor ∧ actor.batches[id]? = some batch) (· = actor) :=
    .thenRead (.checked rfl fun _ found => ⟨rfl, context_eq_ok.mp found⟩)
  refine .thenCall (found.relax fun _ same => same ▸ missing) rfl ?_
  rintro batch _ ⟨rfl, there⟩
  exact rest batch there

theorem continueDefaults_moves (id : String) :
    Ensures answers (Reached isUuid scope origin) (continueDefaults id)
      (fun _ => Reached isUuid scope origin) (Reached isUuid scope origin) := by
  refine .known fun actor reached => thenBatch reached fun batch found => ?_
  refine .thenCheck reached fun _ _ => .thenUpdate (.done ?_)
  exact reached.tail (.opening (setBatch_opening found ⟨rfl, List.Subset.refl _, .inl rfl⟩))

theorem cancelBatch_keeps (batch : Batch) (quiescing : Bool) :
    batch.Follows (cancelBatch batch) quiescing :=
  ⟨rfl, List.nil_subset _, .inl rfl⟩

/-! ## Input -/

theorem attachTo_moves (client session : String) (takeover : Bool) :
    Ensures answers (Reached isUuid scope origin) (attachTo client session takeover)
      (fun _ => Reached isUuid scope origin) (Reached isUuid scope origin) := by
  refine .known fun actor reached => thenLook reached fun before found => ?_
  refine .thenCheck reached fun slot attached => .thenUpdate ?_
  have changed := reached.tail (.attached found attached)
  split
  · rename_i granted
    rw [if_pos granted] at changed
    exact .thenUpdate (.thenCheck changed fun _ _ => .done changed)
  · rename_i same
    rw [if_neg same] at changed
    dsimp only
    exact .thenCheck changed fun _ _ => .done changed

theorem inputTo_moves (client session : String) (data : Option (List UInt8)) (epoch : Nat) :
    Ensures answers (Reached isUuid scope origin) (inputTo client session data epoch)
      (fun _ => Reached isUuid scope origin) (Reached isUuid scope origin) := by
  refine .known fun actor reached => .thenCheck reached fun bytes _ => .thenCheck reached fun _ _ => ?_
  refine thenLook reached fun slot found => .thenAsk fun asked => ?_
  refine .thenCheck reached fun _ accepted => .thenCheck reached fun _ _ => .thenUpdate (.done ?_)
  exact reached.tail (.typed found accepted)

theorem onTerminal_moves (client session : String) (epoch : Nat) :
    Ensures answers (Reached isUuid scope origin) (onTerminal client session epoch)
      (fun _ => Reached isUuid scope origin) (Reached isUuid scope origin) :=
  .known fun _ reached => thenLook reached fun _ _ => .thenCheck reached fun _ _ =>
    .thenCheck reached fun _ _ => .tail (.answer fun _ _ holds => holds) reached

/-! ## Runs and editors -/

/-- Every job was there before. -/
def Trimmed (actor : Actor) (jobs : BTreeMap JobRecord) : Prop :=
  ∀ (id : String) (job : JobRecord), jobs[id]? = some job → actor.runs.jobs[id]? = some job

theorem Trimmed.refl (actor : Actor) : Trimmed actor actor.runs.jobs := fun _ _ found => found

theorem Trimmed.reviews {jobs : BTreeMap JobRecord} (trimmed : Trimmed actor jobs) :
    actor.Reviews isUuid jobs := fun id job _ _ found same =>
  .inr ⟨id, job, trimmed id job found, same⟩

/-- The jobs with one more that has no result yet. -/
theorem reviews_insert {id : String} {job : JobRecord} (new : job.info.result = none) :
    actor.Reviews isUuid (actor.runs.jobs.insert id job) := by
  intro other found review project there same
  rw [insert_get] at there
  split at there
  · cases there
    rw [new] at same
    cases same
  · exact .inr ⟨other, found, there, same⟩

/-- What is left when no work was given: jobs were dropped, and an id may have been drawn. -/
def Unsubmitted (actor last : Actor) : Prop :=
  ∃ jobs nextId, Trimmed actor jobs ∧ (nextId = actor.nextId ∨ nextId = actor.nextId + 1) ∧
    last = { actor with nextId := nextId, runs.jobs := jobs }

/-- What `submit` leaves: the work has been given under the id that was drawn. -/
def Submitted (request : RunRequest) (session : Option String) (cancel : String → String)
    (actor last : Actor) : Prop :=
  ∃ jobs last_, Trimmed actor jobs ∧
    ({ actor with
      nextId := actor.nextId + 1
      runs := RunBridge.give (.request (actor.ids actor.nextId) request session
        (cancel (actor.ids actor.nextId))) { actor.runs with jobs := jobs } } : Actor) = last_ ∧
    actor.runs.alive = true ∧
    ∃ record : JobRecord, record.info.result = none ∧
      last = { last_ with runs.jobs := last_.runs.jobs.insert (actor.ids actor.nextId) record }

theorem evictJob_trims :
    Ensures answers (fun last => ∃ jobs, Trimmed actor jobs ∧
        last = { actor with runs.jobs := jobs }) evictJob
      (fun _ last => ∃ jobs, Trimmed actor jobs ∧ last = { actor with runs.jobs := jobs })
      (Unsubmitted actor) := by
  refine .known fun last trimmed => ?_
  obtain ⟨jobs, trimmed, rfl⟩ := trimmed
  refine .thenRead (.branch (fun _ => ?_) fun _ => .done ⟨jobs, trimmed, rfl⟩)
  refine .thenCheck ⟨jobs, actor.nextId, trimmed, .inl rfl, rfl⟩ fun oldest _ => ?_
  refine .thenUpdate (.done ⟨jobs.erase oldest, fun id job found => ?_, rfl⟩)
  rw [erase_get] at found
  split at found
  · cases found
  · exact trimmed id job found

theorem submit_ends (client : String) (request : RunRequest) (session : Option String)
    (cancel : String → String) (actor : Actor) :
    Ensures answers (· = actor) (submit client request session cancel)
      (fun _ => Submitted request session cancel actor) (Unsubmitted actor) := by
  have same : Unsubmitted actor actor :=
    ⟨actor.runs.jobs, actor.nextId, .refl actor, .inl rfl, rfl⟩
  refine .thenRead (.thenCheck same fun _ _ => thenNow fun time => .thenUpdate (.thenRead ?_))
  have dropped : Trimmed actor (actor.runs.dropExpired time).jobs := by
    intro id job found
    simp only [RunBridge.dropExpired, Std.TreeMap.getElem?_filter',
      Option.filter_eq_some_iff] at found
    exact found.1
  refine .thenCall (.iterate evictJob_trims _) ⟨_, dropped, rfl⟩ ?_
  rintro _ _ ⟨jobs, trimmed, rfl⟩
  refine .thenCall ((newId_ends _).relax fun _ => False.elim) rfl ?_
  rintro id _ ⟨rfl, rfl⟩
  refine .thenCall ((sendWork_ends _ _ _).relax fun _ kept => ?_) rfl ?_
  · exact ⟨jobs, actor.nextId + 1, trimmed, .inr rfl, kept⟩
  rintro _ _ ⟨rfl, alive⟩
  refine thenNow fun created => .thenUpdate (.done ?_)
  exact ⟨jobs, _, trimmed, rfl, alive, _, rfl, rfl⟩

/-- A request without a session. -/
theorem submitFor_moves {client : String} {request : RunRequest}
    (kind : ∀ project task operation, request ≠ .start project task operation)
    (other : ∀ review, request ≠ .editorOpen review) :
    Ensures answers (Reached isUuid scope origin) (submitFor isUuid client request none)
      (fun _ => Reached isUuid scope origin) (Reached isUuid scope origin) := by
  refine .known fun actor reached => .thenAttempt (submit_ends client request none _ actor) rfl ?_ ?_
  · rintro job _ ⟨jobs, _, trimmed, rfl, alive, record, new, rfl⟩
    have dropped := reached.tail (.jobs trimmed.reviews)
    have gave : Reached isUuid scope origin { actor with
        nextId := actor.nextId + 1
        runs := RunBridge.give
          (.request (actor.ids actor.nextId) request none (actor.ids actor.nextId))
          { actor.runs with jobs := jobs } } :=
      (dropped.tail (.opening .drew)).tail (.gave (.request kind other) alive)
    exact .done (gave.tail (.jobs (reviews_insert new)))
  · rintro error _ ⟨jobs, nextId, trimmed, drawn, rfl⟩
    have dropped := reached.tail (.jobs trimmed.reviews)
    obtain rfl | rfl := drawn
    · exact .failing dropped
    · exact .failing (dropped.tail (.opening .drew))

/-- The session of a run or an editor is recorded, or nothing is left of it. -/
theorem reserveSession_ends (project : String) (purpose : SlotPurpose) (name : String)
    (actor : Actor) :
    Ensures answers (· = actor) (reserveSession isUuid project purpose name)
      (fun session last => session = actor.ids actor.nextId ∧
        last = actor.reserved project purpose name ∧ actor.occupied < maxTerminals ∧
        actor.slots.size < hostRecordLimit)
      (fun last => last = actor ∨ actor.occupied < maxTerminals ∧
        actor.slots.size < hostRecordLimit ∧
        last = removeSlot (actor.ids actor.nextId) (actor.reserved project purpose name)) := by
  refine .thenRead (.thenCheck (.inl rfl) fun _ room => .thenCheck (.inl rfl) fun _ tracked => ?_)
  have room : actor.occupied < maxTerminals := by simpa using ensure_eq_ok.mp room
  have tracked : actor.slots.size < hostRecordLimit := by simpa using ensure_eq_ok.mp tracked
  refine .thenCall ((newId_ends actor).relax fun _ => False.elim) rfl ?_
  rintro session _ ⟨rfl, rfl⟩
  refine .thenCall ((newId_ends _).relax fun _ => False.elim) rfl ?_
  rintro terminal _ ⟨rfl, rfl⟩
  refine .thenUpdate (.thenAttempt (persist_ends _) rfl ?_ ?_)
  · rintro _ _ rfl
    exact .done ⟨rfl, rfl, room, tracked⟩
  · rintro error _ rfl
    exact .thenUpdate (.failing (.inr ⟨room, tracked, rfl⟩))

/-- Without the new session the sessions are those from before. -/
theorem unreserved_get (ground : Ground isUuid scope.begun actor) (project : String)
    (purpose : SlotPurpose) (name key : String) :
    ((actor.reserved project purpose name).slots.erase (actor.ids actor.nextId))[key]? =
      actor.slots[key]? := by
  rw [erase_get]
  split
  · rename_i same
    exact same ▸ ground.absent.symm
  · rename_i other
    rw [reserved_get, if_neg other]

/-- A run or an editor is asked for. -/
theorem admit_moves (ground : Ground isUuid scope.begun actor)
    (reached : Reached isUuid scope origin actor) {client project name : String}
    {purpose : SlotPurpose} {request : RunRequest}
    (admits : actor.occupied < maxTerminals → actor.slots.size < hostRecordLimit →
      actor.Admits isUuid scope project purpose name request) :
    Ensures answers (· = actor)
      (reserveSession isUuid project purpose name >>= fun session =>
        submitFor isUuid client request (some session))
      (fun _ => Reached isUuid scope origin) (Reached isUuid scope origin) := by
  have declines {jobs : BTreeMap JobRecord} {nextId : Nat} (trimmed : Trimmed actor jobs)
      (later : actor.nextId ≤ nextId) (room : actor.occupied < maxTerminals)
      (tracked : actor.slots.size < hostRecordLimit) : Reached isUuid scope origin
        { actor.reserved project purpose name with
          slots := (actor.reserved project purpose name).slots.erase (actor.ids actor.nextId)
          nextId := nextId
          runs.jobs := jobs } := by
    have admits := admits room tracked
    have dropped := reached.tail (.jobs trimmed.reviews)
    exact dropped.tail (.declined ⟨admits.asked, admits.serving, admits.room, admits.tracked,
      admits.projectId, admits.named, admits.kind⟩
      (unreserved_get ground project purpose name) later)
  refine .thenCall ((reserveSession_ends project purpose name actor).relax ?_) rfl ?_
  · rintro last (rfl | ⟨room, tracked, rfl⟩)
    · exact reached
    · exact declines (.refl actor) (Nat.le_add_right actor.nextId 2) room tracked
  rintro session _ ⟨rfl, rfl, room, tracked⟩
  refine .thenAttempt (submit_ends client request _ _ _) rfl ?_ ?_
  · rintro job _ ⟨jobs, _, trimmed, rfl, alive, record, new, rfl⟩
    have admits := admits room tracked
    have trimmed : Trimmed actor jobs := trimmed
    have dropped := reached.tail (.jobs trimmed.reviews)
    have admitted : Reached isUuid scope origin { actor.reserved project purpose name with
        nextId := actor.nextId + 1 + 1 + 1
        runs := RunBridge.give (.request (actor.ids (actor.nextId + 1 + 1)) request
          (some (actor.ids actor.nextId)) (actor.ids actor.nextId))
          { actor.runs with jobs := jobs } } :=
      dropped.tail (.admitted ⟨admits.asked, admits.serving, admits.room, admits.tracked,
        admits.projectId, admits.named, admits.kind⟩ alive)
    exact .done (admitted.tail (.jobs (reviews_insert new)))
  · rintro error _ ⟨jobs, nextId, trimmed, drawn, rfl⟩
    refine .thenUpdate (thenPersist fun _ => .failing ?_)
    have later : actor.nextId ≤ nextId := by
      have start : (actor.reserved project purpose name).nextId = actor.nextId + 1 + 1 := rfl
      omega
    exact (declines trimmed later room tracked).tail (.opening .saved)

/-! ## Run requests -/

/-- What a request for a session asks the actor for. -/
structure Launches (isUuid : IsUuid) (request : RunRequest) (project : String)
    (purpose : SlotPurpose) (name : String) : Prop where
  projectId : isUuid project = true
  named : validName name = .ok ()
  kind : (purpose = .run none ∧ ∃ task operation, request = .start project task operation) ∨
    purpose = .editor ∧ ∃ review, request = .editorOpen review

theorem launchOf_ends (ground : Ground isUuid scope.begun actor) (client : String)
    {request : RunRequest} (valid : request.validate isUuid = .ok ()) :
    Ensures answers (· = actor) (launchOf client request)
      (fun launch last => last = actor ∧ match launch with
        | none => (∀ project task operation, request ≠ .start project task operation) ∧
            ∀ review, request ≠ .editorOpen review
        | some (project, purpose, name) => Launches isUuid request project purpose name)
      (· = actor) := by
  cases request with
  | start project task operation =>
    obtain ⟨_, uuid, _⟩ := bind_eq_ok.mp valid
    have named : validName "Task starting" = .ok () := by decide
    exact .done ⟨rfl, ensure_eq_ok.mp uuid, named, .inl ⟨rfl, task, operation, rfl⟩⟩
  | editorOpen review =>
    refine .thenRead (thenNow fun time => .thenCheck rfl fun project reviewed => .done ⟨rfl, ?_⟩)
    have named : validName "Editor" = .ok () := by decide
    -- the project is the one of a review that the worker has answered with
    obtain ⟨entry, member, of⟩ := List.exists_of_findSome?_eq_some (context_eq_ok.mp reviewed)
    have listed := (List.mem_filter.mp member).1
    have found : actor.runs.jobs[entry.1]? = some entry.2 :=
      Std.TreeMap.mem_toList_iff_getElem?_eq_some.mp listed
    have result : ∃ id, entry.2.info.result = some (.editorReview id project) := by
      unfold RunBridge.reviewOf at of
      split at of
      · rename_i id projectId same
        split at of
        · cases of
          exact ⟨id, same⟩
        · cases of
      · cases of
    obtain ⟨id, same⟩ := result
    exact ⟨ground.reviews entry.1 entry.2 id project found same, named, .inr ⟨rfl, review, rfl⟩⟩
  | job | cancelJob | info | list | log | cancel | other =>
    exact .done ⟨rfl, nofun, nofun⟩

theorem cancelJob_moves (client id : String) :
    Ensures answers (Reached isUuid scope origin) (cancelJob client id)
      (fun _ => Reached isUuid scope origin) (Reached isUuid scope origin) := by
  refine .known fun actor reached => .thenRead (.thenCheck reached fun pair _ => ?_)
  obtain ⟨job, cell⟩ := pair
  have stored := reached.tail (.cells (List.subset_cons_self cell _))
  refine .thenUpdate ?_
  split
  · refine .thenRead (.branch (fun _ => ?_) fun _ => .done stored)
    exact .thenCall (requestClose_moves _ false) stored fun _ _ moved => .done moved
  · exact .done stored

theorem runRequest_moves (ground : Ground isUuid scope.begun origin) (asked : scope.asked)
    (client : String) {request : RunRequest} (valid : request.validate isUuid = .ok ()) :
    Ensures answers (Reached isUuid scope origin) (runRequest isUuid client request)
      (fun _ => Reached isUuid scope origin) (Reached isUuid scope origin) := by
  have accepted : Ensures answers (Reached isUuid scope origin) (do
      let actor ← Procedure.current
      ensure (!actor.quiescing || request.winding)
        "host shutdown in progress; no new run jobs accepted"
      match ← launchOf client request with
      | none => submitFor isUuid client request none
      | some (project, purpose, name) => do
        let session ← reserveSession isUuid project purpose name
        submitFor isUuid client request (some session) : Act RunJob)
      (fun _ => Reached isUuid scope origin) (Reached isUuid scope origin) := by
    refine .known fun actor reached => .thenRead (.thenCheck reached fun _ admitted => ?_)
    have grounded := ground.reached reached
    refine .thenCall ((launchOf_ends grounded client valid).relax fun _ same => same ▸ reached) rfl ?_
    rintro launch actor ⟨rfl, launches⟩
    cases launch with
    | none => exact .tail (submitFor_moves launches.1 launches.2) reached
    | some launch =>
      obtain ⟨project, purpose, name⟩ := launch
      have launches : Launches isUuid request project purpose name := launches
      have serving : actor.quiescing = false := by
        have winding : request.winding = false := by
          rcases launches.kind with ⟨-, task, operation, rfl⟩ | ⟨-, review, rfl⟩ <;> rfl
        simpa [winding] using ensure_eq_ok.mp admitted
      exact admit_moves grounded reached fun room tracked =>
        { launches with asked, serving, room, tracked }
  cases request with
  | job id =>
    exact .known fun actor reached => .thenRead (.checked reached fun _ _ => reached)
  | cancelJob id => exact cancelJob_moves client id
  | start | editorOpen | info | list | log | cancel | other => exact accepted

/-! ## Git -/

/-- What the Git bridge does is one change. -/
theorem onGit_moves {α : Type} {op : Git.Op α} (reached : Reached isUuid scope origin actor)
    (does : Ensures (fun index => (answers index).git) (· = actor.git) op
      (fun _ git => actor.git.Grows actor.liveCount git ∧
        (actor.quiescing = true → Git.Within actor.git.docket git))
      (fun git => actor.git.Grows actor.liveCount git ∧
        (actor.quiescing = true → Git.Within actor.git.docket git))) :
    Ensures answers (· = actor) (onGit op) (fun _ => Reached isUuid scope origin)
      (Reached isUuid scope origin) := by
  refine (Ensures.zoom does).consequence (fun _ => id) ?_ ?_
  · rintro _ _ ⟨git, ⟨grows, within⟩, rfl⟩
    exact reached.tail (.git within grows)
  · rintro _ ⟨git, ⟨grows, within⟩, rfl⟩
    exact reached.tail (.git within grows)

theorem gitRequest_moves (formats : Git.GitFormats) (client : String) (request : Git.GitRequest)
    (screen : Result (Option Git.TerminalSnapshot)) (reached : Reached isUuid scope origin actor) :
    Ensures answers (· = actor)
      (onGit (Git.request formats client actor.liveCount actor.quiescing screen request))
      (fun _ => Reached isUuid scope origin) (Reached isUuid scope origin) := by
  refine onGit_moves reached ?_
  cases closing : actor.quiescing with
  | true =>
    have within := @Git.request_within formats (fun index => (answers index).git)
      actor.git.docket client actor.liveCount true screen request (.inl rfl)
    refine within.consequence (fun _ same => same ▸ .refl _) ?_ ?_
    · exact fun _ _ within => ⟨.inl within, fun _ => within⟩
    · exact fun _ within => ⟨.inl within, fun _ => within⟩
  | false =>
    have grows := @Git.request_grows formats (fun index => (answers index).git)
      client actor.liveCount false screen request actor.git
    exact grows.consequence (fun _ => id) (fun _ _ grows => ⟨grows, nofun⟩)
      fun _ grows => ⟨grows, nofun⟩

/-! ## Every request -/

theorem value_moves (reply : Reply) :
    Ensures answers (Reached isUuid scope origin) (value reply)
      (fun _ => Reached isUuid scope origin) (Reached isUuid scope origin) :=
  .known fun _ reached => .thenCheck reached fun _ _ => .done reached

/-- The terminal that a request starts, with its project. -/
def Request.started? : Request → Option (String × String)
  | .start project terminal _ => some (project, terminal)
  | .startTransient project terminal _ => some (project, terminal.id)
  | _ => none

/-- What is known of a request that a client makes. -/
structure Serves (isUuid : IsUuid) (scope : Scope) (origin : Actor) (request : Request) : Prop where
  asked : scope.asked
  valid : request.validate isUuid = .ok ()
  foreign : ∀ terminal, request.terminal? = some terminal → origin.Foreign terminal
  starts : ∀ project terminal, request.started? = some (project, terminal) →
    scope.starts project terminal

theorem closeSession_moves (client session : String) (epoch : Nat) (force : Bool) :
    Ensures answers (Reached isUuid scope origin) (closeSession isUuid client session epoch force)
      (fun _ => Reached isUuid scope origin) (Reached isUuid scope origin) := by
  have shown : Ensures answers (Reached isUuid scope origin) (do
      let slot ← slotOf session
      value (.session slot.info) : Act Reply)
      (fun _ => Reached isUuid scope origin) (Reached isUuid scope origin) :=
    .known fun _ reached => thenLook reached fun _ _ => .tail (value_moves _) reached
  refine .known fun actor reached => thenLook reached fun slot _ => .branch (fun _ => ?_) fun _ => ?_
  · refine .thenCheck reached fun _ _ => .thenCall (closeOne_moves session force) reached ?_
    exact fun _ _ moved => shown.tail moved
  · exact shown.tail reached

theorem execute_moves (formats : Git.GitFormats) (client : String) {request : Request}
    (ground : Ground isUuid scope.begun origin) (loads : origin.Loads isUuid answers)
    (serves : Serves isUuid scope origin request) :
    Ensures answers (· = origin) (execute isUuid formats client request)
      (fun _ => Reached isUuid scope origin) (Reached isUuid scope origin) := by
  have start : Reached isUuid scope origin origin := .refl
  have lost : ∀ last, Opens isUuid scope origin last → Reached isUuid scope origin last :=
    fun _ opens => opens.reached .refl
  cases request with
  | hello => exact .done start
  | list => exact .thenRead (.tail (value_moves _) start)
  | definition session =>
    refine thenLook start fun slot _ => ?_
    cases slot.purpose with
    | terminal definition => exact .thenCheck start fun _ _ => .done start
    | run | editor => exact .failing start
  | start project terminal reopen =>
    obtain ⟨_, uuid, _⟩ := bind_eq_ok.mp serves.valid
    have opens := startSaved_opens ground loads (ensure_eq_ok.mp uuid)
      (serves.starts project terminal rfl) reopen
    exact .thenCall (opens.relax lost) rfl fun _ _ moved => .tail (value_moves _) (lost _ moved)
  | startTransient project terminal reopen =>
    obtain ⟨_, uuid, rest⟩ := bind_eq_ok.mp serves.valid
    obtain ⟨_, terminalId, _⟩ := bind_eq_ok.mp rest
    have startable : Startable isUuid scope origin project terminal.id :=
      ⟨ensure_eq_ok.mp uuid, ensure_eq_ok.mp terminalId, serves.foreign terminal.id rfl,
        serves.starts project terminal.id rfl⟩
    have opens := @startTransient_opens _ _ answers _ ground _ _ startable reopen
    exact .thenCall (opens.relax lost) rfl fun _ _ moved => .tail (value_moves _) (lost _ moved)
  | startDefaults project =>
    have uuid : isUuid project = true := ensure_eq_ok.mp serves.valid
    exact .thenCall (startDefaults_moves serves.asked uuid) start fun _ _ moved => .done moved
  | batch id => exact thenBatch start fun _ _ => .done start
  | continueDefaults id =>
    exact .thenCall (continueDefaults_moves id) start fun _ _ moved => .done moved
  | cancelDefaults id =>
    refine thenBatch start fun batch found => .thenUpdate (.done ?_)
    exact start.tail (.opening (setBatch_opening found
      (cancelBatch_keeps batch origin.quiescing)))
  | attach session takeover => exact .tail (attachTo_moves client session takeover) start
  | detach session epoch =>
    refine thenLook start fun slot found => .thenCheck start fun after detached => .thenUpdate ?_
    exact .tail (value_moves _) (start.tail (slots_set found (.single (.detached detached))))
  | snapshot session since =>
    refine thenLook start fun slot _ => .thenAsk fun asked => .thenCheck start fun reply _ => ?_
    exact .tail (value_moves _) start
  | input session data epoch => exact .tail (inputTo_moves client session data epoch) start
  | resize session epoch | scroll session epoch =>
    refine .thenCall (onTerminal_moves client session epoch) start fun _ _ moved => ?_
    exact .thenCheck moved fun _ _ => .done moved
  | search session epoch =>
    refine .thenCall (onTerminal_moves client session epoch) start fun _ _ moved => ?_
    exact .thenCheck moved fun _ _ => .done moved
  | close session epoch force => exact .tail (closeSession_moves client session epoch force) start
  | previewClose project =>
    exact .thenRead (.thenCheck start fun _ _ => .tail (value_moves _) start)
  | closeProject project sessions force =>
    exact .thenCall (closeMany_moves (some project) sessions force) start fun _ _ moved => .done moved
  | shutdown sessions force =>
    exact .thenCall (closeMany_moves none sessions force) start fun _ _ moved => .done moved
  | run request =>
    refine .thenCall (runRequest_moves ground serves.asked client serves.valid) start ?_
    exact fun _ _ moved => .done moved
  | git request =>
    refine .thenRead (.thenAsk fun asked => ?_)
    refine .thenCall (gitRequest_moves formats client request _ start) rfl ?_
    exact fun _ _ moved => .done moved

end Idk.Host
