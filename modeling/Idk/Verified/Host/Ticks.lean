import Idk.Verified.Host.Beside
import Idk.Verified.Host.Hearing

/-!
# Every tick is a sequence of changes

A tick hears the workers, looks after every process, hands ended runs on, forgets what is too
much and goes on with the default-open batches.  Each of these parts is walked once.

**Main result:** `tick_moves`.
-/

namespace Idk.Host

open Idk.Logic
open Idk.Logic.Procedure (Ensures)
open Relation (ReflTransGen)
open Actor

variable {isUuid : IsUuid} {scope : Scope} {answers : Nat → HostAnswers} {origin actor after : Actor}

/-! ## Descendants -/

/-- What the Git bridge does between two requests adds no operation. -/
theorem within_moves {α : Type} {op : Git.Op α} (reached : Reached isUuid scope origin actor)
    (keeps : Git.Keeps (fun index => (answers index).git) op (Git.Within actor.git.docket)) :
    Ensures answers (· = actor) (onGit op) (fun _ => Reached isUuid scope origin)
      (Reached isUuid scope origin) :=
  onGit_moves reached (keeps.consequence (fun _ same => same ▸ .refl _)
    (fun _ _ within => ⟨.inl within, fun _ => within⟩) fun _ within => ⟨.inl within, fun _ => within⟩)

/-- No process is signalled where the session may not be closed. -/
theorem visit_quiet {slot : Slot} {runsDead : Bool} {host : Pid} {answer : Pid → ChildAnswer}
    {before : Slot.Visit} {process : Process} (forbidden : slot.mayClose runsDead = false)
    (same : before.signals = false) :
    (slot.visit runsDead host answer before process).signals = false := by
  unfold Slot.visit
  split
  · exact same
  · dsimp only
    split
    · exact same
    · split <;> exact same
    · split
      · rename_i closes
        simp [forbidden] at closes
      · exact same

theorem inventory_signals {slot : Slot} {runsDead : Bool} {host : Pid} {answer : Pid → ChildAnswer}
    {report : Report} {anchor : Anchor}
    (signals : (slot.inventory runsDead host answer report anchor).2 = true) :
    slot.mayClose runsDead = true := by
  by_contra allowed
  have forbidden : slot.mayClose runsDead = false := by simpa using allowed
  have quiet : ∀ (processes : List Process) (before : Slot.Visit), before.signals = false →
      (processes.foldl (slot.visit runsDead host answer) before).signals = false := by
    intro processes
    induction processes with
    | nil => exact fun _ same => same
    | cons process rest inductionHypothesis =>
      exact fun before same => inductionHypothesis _ (visit_quiet forbidden same)
  have silent : (slot.inventory runsDead host answer report anchor).2 = false := quiet _ _ rfl
  rw [silent] at signals
  cases signals

theorem acceptAnchor_moves {report : Report} {anchor : Anchor} (member : anchor ∈ report.anchors) :
    Ensures answers
      (fun actor => Reached isUuid scope origin actor ∧ .reported report ∈ actor.history)
      (acceptAnchor report anchor)
      (fun _ actor => Reached isUuid scope origin actor ∧ .reported report ∈ actor.history)
      (Reached isUuid scope origin) := by
  refine .known fun actor ⟨reached, heard⟩ => .thenRead ?_
  cases found : actor.slots[anchor.session]? with
  | none => exact .done ⟨reached, heard⟩
  | some slot =>
    refine .branch (fun about => .thenAsk fun asked => ?_) fun _ => .done ⟨reached, heard⟩
    refine .branch (fun signals => .thenUpdate (.updated ⟨?_, ?_⟩)) fun _ => .updated ⟨?_, heard⟩
    · have signalled := reached.tail (.signalled found (.inl (inventory_signals signals)))
      exact signalled.tail (slots_set found (.single
        (.inventoried (List.mem_cons_of_mem _ heard) member rfl about)))
    · exact List.mem_cons_of_mem _ heard
    · exact reached.tail (slots_set found (.single (.inventoried heard member rfl about)))

theorem cleanupNotice_noted {session : String} {slot : Slot} (message : String) :
    ReflTransGen (Slot.Step isUuid scope actor session) slot (slot.cleanupNotice message) := by
  unfold Slot.cleanupNotice
  split
  · exact .single .noted
  · exact .refl

theorem inventoryUnavailable_moves :
    Ensures answers (Reached isUuid scope origin) inventoryUnavailable
      (fun _ => Reached isUuid scope origin) (Reached isUuid scope origin) := by
  refine .update fun actor reached => reached.tail (slots_mapped fun key slot _ => ?_)
  split
  · exact cleanupNotice_noted _
  · exact .refl

theorem pollChildInventory_moves :
    Ensures answers (Reached isUuid scope origin) pollChildInventory
      (fun _ => Reached isUuid scope origin) (Reached isUuid scope origin) := by
  refine .known fun actor reached => .thenRead ?_
  cases next : actor.scanning.reports with
  | nil =>
    refine .branch (fun _ => .thenUpdate ?_) fun _ => .done reached
    exact .tail inventoryUnavailable_moves (reached.tail .scanLost)
  | cons report rest =>
    refine .thenUpdate (.thenUpdate (.thenAsk fun asked => ?_))
    have heard := reached.tail (.reported next)
    -- what has been heard stays in the history while the bridge and the slots look at it
    refine .thenCall ((@within_moves _ _ answers _ _ _ _ .refl
      (Git.inventories_within actor.pid (answers asked).children report)).relax fun _ => heard.trans)
      rfl fun _ last moved => ?_
    have kept := (later_of_reached moved).history.subset List.mem_cons_self
    refine .tail ((Ensures.forM_mem fun anchor member => acceptAnchor_moves member).consequence
      (fun _ => id) (fun _ _ ends => ends.1) fun _ => id) ⟨heard.trans moved, kept⟩

theorem scheduleChildInventory_moves :
    Ensures answers (Reached isUuid scope origin) scheduleChildInventory
      (fun _ => Reached isUuid scope origin) (Reached isUuid scope origin) := by
  refine .known fun actor reached => .thenRead (thenNow fun time => ?_)
  refine .branch (fun _ => .branch (fun _ => .thenAsk fun asked => ?_) fun _ => .done reached)
    fun _ => .done reached
  refine .branch (fun _ => .thenUpdate (.updated ?_)) fun _ =>
    .tail inventoryUnavailable_moves reached
  refine reached.tail (.scanned fun anchor member => ?_)
  rcases List.mem_append.mp member with member | member
  · obtain ⟨entry, listed, of⟩ := List.mem_filterMap.mp member
    exact .inl ⟨entry.1, entry.2, Std.TreeMap.mem_toList_iff_getElem?_eq_some.mp listed, of⟩
  · exact .inr member

/-! ## Processes -/

namespace Slot

/-- Only what is shown of the session has changed, and the force of a close. -/
def Noted (before after : Slot) : Prop :=
  ∃ generation error initialization cwd frozen force, after =
    { before with
      info.generation := generation
      info.error := error
      info.initialization := initialization
      info.cwd := cwd
      frozen := frozen
      cleanup.force := force }

namespace Noted

variable {session : String} {before after third : Slot}

theorem refl (slot : Slot) : slot.Noted slot := ⟨_, _, _, _, _, _, rfl⟩

theorem trans (one : before.Noted after) (two : after.Noted third) : before.Noted third := by
  obtain ⟨_, _, _, _, _, _, rfl⟩ := one
  obtain ⟨_, _, _, _, _, _, rfl⟩ := two
  exact ⟨_, _, _, _, _, _, rfl⟩

theorem withError (noted : before.Noted after) (error : String) :
    before.Noted (after.withError error) :=
  noted.trans ⟨_, _, _, _, _, _, rfl⟩

theorem cleanupNotice (noted : before.Noted after) (message : String) :
    before.Noted (after.cleanupNotice message) := by
  unfold Slot.cleanupNotice
  split
  · exact noted.withError _
  · exact noted

theorem step (noted : before.Noted after) : Step isUuid scope actor session before after := by
  obtain ⟨_, _, _, _, _, _, rfl⟩ := noted
  exact .noted

theorem runtime (noted : before.Noted after) : after.runtime = before.runtime := by
  obtain ⟨_, _, _, _, _, _, rfl⟩ := noted
  rfl

theorem exit (noted : before.Noted after) : after.info.exit = before.info.exit := by
  obtain ⟨_, _, _, _, _, _, rfl⟩ := noted
  rfl

theorem done (noted : before.Noted after) : after.cleanup.done = before.cleanup.done := by
  obtain ⟨_, _, _, _, _, _, rfl⟩ := noted
  rfl

theorem mayClose (noted : before.Noted after) (runsDead : Bool) :
    after.mayClose runsDead = before.mayClose runsDead := by
  obtain ⟨_, _, _, _, _, _, rfl⟩ := noted
  rfl

end Noted

theorem refresh_noted (slot : Slot) (status : Result Git.TerminalStatus) :
    slot.Noted (slot.refresh status) := by
  unfold refresh
  split
  · cases status with
    | error error => exact .refl slot
    | ok status => exact ⟨_, _, _, _, _, _, rfl⟩
  · exact .refl slot

theorem observeInitialization_noted (slot : Slot) (state : Result InitializationState) :
    slot.Noted (slot.observeInitialization state) := by
  unfold observeInitialization
  split
  · cases state with
    | error error => exact ⟨_, _, _, _, _, _, rfl⟩
    | ok state => exact ⟨_, _, _, _, _, _, rfl⟩
  · exact .refl slot

theorem escalated_noted (slot : Slot) (close : Result Unit) : slot.Noted (slot.escalated close) := by
  unfold escalated
  cases close with
  | ok done => exact ⟨_, _, _, _, _, _, rfl⟩
  | error error => exact ⟨_, _, _, _, _, _, rfl⟩

theorem prepareTick_noted (slot : Slot) (runtime : Runtime) (answers : TickAnswers)
    (runsDead : Bool) (now : Nat) :
    slot.Noted (slot.prepareTick runtime answers runsDead now).slot ∧
      ((slot.prepareTick runtime answers runsDead now).escalated = true →
        slot.mayClose runsDead = true) ∧
      (slot.prepareTick runtime answers runsDead now).exited = false ∧
      (slot.prepareTick runtime answers runsDead now).reaped = false := by
  have shown := (slot.refresh_noted answers.status).trans
    (observeInitialization_noted _ answers.initialization)
  unfold prepareTick
  dsimp only
  split
  · rename_i due
    refine ⟨shown.trans (escalated_noted _ _), fun _ => ?_, rfl, rfl⟩
    rw [← shown.mayClose]
    simp only [escalates, Bool.and_eq_true] at due
    exact due.2
  · exact ⟨shown, nofun, rfl, rfl⟩

theorem cutOff_noted (slot : Slot) (endCollection : Result Unit) :
    slot.Noted (slot.cutOff endCollection) := by
  unfold cutOff
  cases endCollection with
  | ok done =>
    dsimp only
    split
    · exact (Noted.refl slot).withError _
    · exact .refl slot
  | error error =>
    dsimp only
    split
    · exact ((Noted.refl slot).withError _).withError _
    · exact (Noted.refl slot).withError _

theorem freeze_noted (slot : Slot) (answers : TickAnswers) (now : Nat) :
    slot.Noted (slot.freeze answers now) := by
  have cut : slot.Noted (if Git.Operation.readerClosed answers.closedAgain then slot
      else slot.cutOff answers.endCollection) := by
    split
    · exact .refl slot
    · exact slot.cutOff_noted _
  unfold freeze
  split
  · dsimp only
    cases answers.snapshot with
    | ok screen => exact cut.trans ⟨_, _, _, _, _, _, rfl⟩
    | error error => exact cut.withError _
  · exact .refl slot

theorem stillRunning_noted (slot : Slot) (answers : TickAnswers) (now : Nat) :
    slot.Noted (slot.stillRunning answers now) := by
  have moved : slot.Noted { slot with info.cwd := answers.cwd } := ⟨_, _, _, _, _, _, rfl⟩
  unfold stillRunning
  dsimp only
  split
  · exact moved.cleanupNotice _
  · exact moved

theorem observeExit_exit (slot : Slot) (exit : TerminalExit) (now : Nat) :
    (slot.observeExit exit now).info.exit.isSome = true ∧
      (slot.observeExit exit now).runtime = slot.runtime ∧
      (slot.observeExit exit now).cleanup.done = slot.cleanup.done := by
  unfold observeExit
  split
  · have told := fun after : Slot => (Noted.refl after).cleanupNotice
      "shell exited; checking same-session descendants"
    refine ⟨?_, (told _).runtime, (told _).done⟩
    rw [(told _).exit]
    rfl
  · rename_i known
    exact ⟨by simpa [Option.isSome_iff_ne_none] using known, rfl, rfl⟩

/-- What one round of the loop over the slots can make of a slot. -/
inductive Ticks (slot : Slot) (answers : TickAnswers) (runsDead : Bool) (now : Nat) :
    Ticked → Prop where
  | absent (none_ : slot.runtime = none) : Ticks slot answers runsDead now ⟨slot, false, false, false, false⟩
  | running {after : Slot} {changed escalated : Bool} (running : slot.runtime.isSome = true)
      (noted : slot.Noted after) (may : escalated = true → slot.mayClose runsDead = true) :
      Ticks slot answers runsDead now ⟨after, changed, escalated, false, false⟩
  | exited {prepared after : Slot} {exit : TerminalExit} {changed escalated : Bool}
      (running : slot.runtime.isSome = true) (noted : slot.Noted prepared)
      (may : escalated = true → slot.mayClose runsDead = true)
      (shown : (prepared.observeExit exit now).Noted after) :
      Ticks slot answers runsDead now ⟨after, changed, escalated, slot.info.exit.isNone, false⟩
  | reaped {prepared frozen : Slot} {exit last : TerminalExit} {changed escalated : Bool}
      (running : slot.runtime.isSome = true) (noted : slot.Noted prepared)
      (may : escalated = true → slot.mayClose runsDead = true)
      (shown : (prepared.observeExit exit now).Noted frozen)
      (clean : slot.cleanup.done = true) (collected : answers.reapExit = .ok last) :
      Ticks slot answers runsDead now
        ⟨frozen.reaped last, changed, escalated, slot.info.exit.isNone, true⟩

theorem tick_cases (slot : Slot) (answers : TickAnswers) (runsDead : Bool) (now : Nat) :
    slot.Ticks answers runsDead now (slot.tick answers runsDead now) := by
  unfold tick
  cases runtime : slot.runtime with
  | none => exact .absent runtime
  | some process =>
    have running : slot.runtime.isSome = true := by simp [runtime]
    have ready := slot.prepareTick_noted process answers runsDead now
    dsimp only
    generalize slot.prepareTick process answers runsDead now = ticked at ready ⊢
    obtain ⟨prepared, changed, escalated, _, _⟩ := ticked
    obtain ⟨noted, may, rfl, rfl⟩ := ready
    cases answers.waited with
    | error error => exact .running running (noted.withError _) may
    | ok waited =>
      cases waited with
      | none => exact .running running (noted.trans (prepared.stillRunning_noted _ _)) may
      | some exit =>
        have shown := (prepared.observeExit exit now).freeze_noted answers now
        -- whether the exit is new is read off the slot before it is noted
        have first : prepared.info.exit.isNone = slot.info.exit.isNone := by rw [noted.exit]
        dsimp only [settleExit]
        rw [first]
        split
        · rename_i clean
          have clean : slot.cleanup.done = true := by
            simp only [reapable, Bool.and_eq_true] at clean
            rw [← noted.done, ← (prepared.observeExit_exit exit now).2.2, ← shown.done]
            exact clean.1
          cases collected : answers.reapExit with
          | ok last => exact .reaped running noted may shown clean collected
          | error error => exact .exited running noted may (shown.withError _)
        · exact .exited running noted may shown

namespace Ticks

variable {slot : Slot} {terminal : TickAnswers} {runsDead : Bool} {now : Nat} {ticked : Ticked}

theorem closes (ticks : slot.Ticks terminal runsDead now ticked) (escalated : ticked.escalated = true) :
    slot.mayClose runsDead = true := by
  cases ticks with
  | absent => cases escalated
  | running _ _ may | exited _ _ may | reaped _ _ may => exact may escalated

theorem exits (ticks : slot.Ticks terminal runsDead now ticked) (exited : ticked.exited = true) :
    slot.info.exit = none ∧ slot.runtime.isSome = true := by
  cases ticks with
  | absent | running => cases exited
  | exited running | reaped running => exact ⟨Option.isNone_iff_eq_none.mp exited, running⟩

theorem reaps (ticks : slot.Ticks terminal runsDead now ticked) (reaped : ticked.reaped = true) :
    slot.cleanup.done = true ∧ slot.runtime.isSome = true := by
  cases ticks with
  | absent | running | exited => cases reaped
  | reaped running _ _ _ clean => exact ⟨clean, running⟩

theorem steps {session : String} (ticks : slot.Ticks terminal runsDead now ticked)
    (told : ticked.exited = true →
      .exited session (slot.runtime.bind (·.childPid)) ∈ actor.history)
    (allowed : ∀ exit, terminal.reapExit = .ok exit → scope.reaps session) :
    ReflTransGen (Step isUuid scope actor session) slot ticked.slot := by
  -- the exit is seen in the slot as it is shown, with the process it still has
  have sees : ∀ {prepared : Slot} {exit : TerminalExit}, slot.runtime.isSome = true →
      slot.Noted prepared →
      (slot.info.exit.isNone = true → .exited session (slot.runtime.bind (·.childPid)) ∈ actor.history) →
      ReflTransGen (Step isUuid scope actor session) slot (prepared.observeExit exit now) := by
    intro prepared exit running noted seen
    refine .tail (.single noted.step) (.exited (noted.runtime ▸ running) fun unseen => ?_)
    rw [noted.runtime]
    exact seen (by rw [← noted.exit, unseen]; rfl)
  cases ticks with
  | absent => exact .refl
  | running _ noted => exact .single noted.step
  | exited running noted _ shown => exact (sees running noted told).tail shown.step
  | @reaped prepared frozen exit last _ _ running noted _ shown clean collected =>
    obtain ⟨observed, runtime, done⟩ := prepared.observeExit_exit exit now
    refine ((sees running noted told).tail shown.step).tail (.reaped ?_ ?_ ?_ (allowed last collected))
    · exact shown.exit ▸ observed
    · rw [shown.done, done, noted.done]
      exact clean
    · rw [shown.runtime, runtime, noted.runtime]
      exact running

end Ticks

end Slot

/-- The slot of the session is still the one that was looked at. -/
def Seen (isUuid : IsUuid) (scope : Scope) (origin : Actor) (session : String) (slot : Slot)
    (ticked : Slot.Ticked) (actor : Actor) : Prop :=
  Reached isUuid scope origin actor ∧ actor.slots[session]? = some slot ∧
    (ticked.exited = true → .exited session (slot.runtime.bind (·.childPid)) ∈ actor.history)

theorem tickSlot_moves (reaps : ∀ asked session exit,
    ((answers asked).ticks session).reapExit = .ok exit → scope.reaps session) (session : String) :
    Ensures answers (Reached isUuid scope origin) (tickSlot session)
      (fun _ => Reached isUuid scope origin) (Reached isUuid scope origin) := by
  refine .known fun actor reached => thenLook reached fun slot found => .thenRead (.thenAsk fun asked => ?_)
  have ticks := slot.tick_cases ((answers asked).ticks session) actor.runsDead (answers asked).now
  have allowed := reaps asked session
  dsimp only
  generalize slot.tick ((answers asked).ticks session) actor.runsDead (answers asked).now = ticked at ticks ⊢
  have sets : Ensures answers (Seen isUuid scope origin session slot ticked) (do
      Procedure.update (setSlot session ticked.slot)
      return ticked.changed : Act Bool)
      (fun _ => Reached isUuid scope origin) (Reached isUuid scope origin) :=
    .known fun actor ⟨reached, found, told⟩ =>
      .thenUpdate (.done (reached.tail (slots_set found (ticks.steps told allowed))))
  have reaps : Ensures answers (Seen isUuid scope origin session slot ticked) (do
      if ticked.reaped then
        Procedure.update (record (.reaped session (slot.runtime.bind (·.childPid))))
      Procedure.update (setSlot session ticked.slot)
      return ticked.changed : Act Bool)
      (fun _ => Reached isUuid scope origin) (Reached isUuid scope origin) := by
    refine .known fun actor ⟨reached, found, told⟩ => .branch (fun reaped => .thenUpdate (.tail sets ?_))
      fun _ => .tail sets ⟨reached, found, told⟩
    obtain ⟨clean, running⟩ := ticks.reaps reaped
    exact ⟨reached.tail (.leaderReaped found clean running), found,
      fun exited => List.mem_cons_of_mem _ (told exited)⟩
  have exits : Ensures answers
      (fun actor => Reached isUuid scope origin actor ∧ actor.slots[session]? = some slot) (do
      if ticked.exited then
        Procedure.update (record (.exited session (slot.runtime.bind (·.childPid))))
      if ticked.reaped then
        Procedure.update (record (.reaped session (slot.runtime.bind (·.childPid))))
      Procedure.update (setSlot session ticked.slot)
      return ticked.changed : Act Bool)
      (fun _ => Reached isUuid scope origin) (Reached isUuid scope origin) := by
    refine .known fun actor ⟨reached, found⟩ => .branch (fun exited => .thenUpdate (.tail reaps ?_))
      fun same => .tail reaps ⟨reached, found, fun exited => absurd exited same⟩
    obtain ⟨unseen, running⟩ := ticks.exits exited
    exact ⟨reached.tail (.leaderExited found unseen running), found, fun _ => List.mem_cons_self⟩
  refine .branch (fun escalated => .thenUpdate (.tail exits ⟨?_, found⟩)) fun _ =>
    .tail exits ⟨reached, found⟩
  exact reached.tail (.signalled found (.inl (ticks.closes escalated)))

theorem tickEach_moves (reaps : ∀ asked session exit,
    ((answers asked).ticks session).reapExit = .ok exit → scope.reaps session) (changed : Bool)
    (sessions : List String) :
    Ensures answers (Reached isUuid scope origin) (tickEach changed sessions)
      (fun _ => Reached isUuid scope origin) (Reached isUuid scope origin) := by
  induction sessions generalizing changed with
  | nil => exact .value fun _ reached => reached
  | cons session rest inductionHypothesis =>
    exact (tickSlot_moves reaps session).bind fun _ => inductionHypothesis _

/-- The entries that a loop has still before it are as they were when it began. -/
def Untouched (entries : List (String × Slot)) (actor : Actor) : Prop :=
  entries.Pairwise (fun one other => one.1 ≠ other.1) ∧
    ∀ entry ∈ entries, actor.slots[entry.1]? = some entry.2

theorem toList_distinct {α : Type} (table : BTreeMap α) :
    table.toList.Pairwise fun one other => one.1 ≠ other.1 :=
  Std.TreeMap.distinct_keys_toList.imp fun apart same => apart (by simp [same])

theorem untouched_slots (actor : Actor) : Untouched actor.slots.toList actor :=
  ⟨toList_distinct actor.slots,
    fun _ listed => Std.TreeMap.mem_toList_iff_getElem?_eq_some.mp listed⟩

/-- What holds while some sessions are still to be looked at. -/
def Finishing (isUuid : IsUuid) (scope : Scope) (origin : Actor) (rest : List (String × Slot))
    (actor : Actor) : Prop :=
  Reached isUuid scope origin actor ∧ Untouched rest actor

theorem finishEntry_moves (time : Nat) (entry : String × Slot) (rest : List (String × Slot)) :
    Ensures answers
      (Finishing isUuid scope origin (entry :: rest))
      (do
        if let some runId := entry.2.toFinish time then
          finishRun entry.1 runId entry.2 : Act Unit)
      (fun _ => Finishing isUuid scope origin rest) (Reached isUuid scope origin) := by
  refine .known fun actor ⟨reached, apart, same⟩ => ?_
  obtain ⟨others, apart⟩ := List.pairwise_cons.mp apart
  have later : Untouched rest actor :=
    ⟨apart, fun other listed => same other (List.mem_cons_of_mem _ listed)⟩
  cases owed : entry.2.toFinish time with
  | none => exact .done ⟨reached, later⟩
  | some runId =>
    refine .thenAttempt (sendWork_ends _ _ actor) rfl ?_ ?_
    · rintro _ _ ⟨rfl, alive⟩
      have found := same entry List.mem_cons_self
      refine .thenUpdate (.updated ⟨reached.tail (.finishSent found owed alive), apart, ?_⟩)
      intro other listed
      -- another session is not touched
      have unchanged := later.2 other listed
      simpa [record, modifySlot_get, others other listed] using unchanged
    · rintro _ _ rfl
      exact .done ⟨reached, later⟩

theorem finishRuns_moves :
    Ensures answers (Reached isUuid scope origin) finishRuns
      (fun _ => Reached isUuid scope origin) (Reached isUuid scope origin) := by
  refine .known fun actor reached => .thenRead (thenNow fun time => ?_)
  have each := Ensures.forM_rest (@finishEntry_moves isUuid scope answers origin time)
    actor.slots.toList
  exact .tail (each.consequence (fun _ => id) (fun _ _ ends => ends.1) fun _ => id)
    ⟨reached, untouched_slots actor⟩

/-! ## What is kept of ended sessions -/

theorem evictScreens_moves :
    Ensures answers (Reached isUuid scope origin) evictScreens
      (fun _ => Reached isUuid scope origin) (Reached isUuid scope origin) :=
  .known fun _ reached => .thenRead (.tail (.forM (fun _ => .update fun _ moved =>
    moved.tail (slots_modified fun _ _ => .single .noted)) _) reached)

theorem endedFirst_mem {condition : Slot → Bool} {session : String}
    (listed : session ∈ actor.endedFirst condition) :
    ∃ slot, actor.slots[session]? = some slot ∧ condition slot = true := by
  obtain ⟨pair, sorted, rfl⟩ := List.mem_map.mp listed
  obtain ⟨entry, kept, rfl⟩ := List.mem_map.mp ((List.mergeSort_perm _ _).mem_iff.mp sorted)
  obtain ⟨there, holds⟩ := List.mem_filter.mp kept
  exact ⟨entry.2, Std.TreeMap.mem_toList_iff_getElem?_eq_some.mp there, holds⟩

/-- While sessions are removed, the ones still to be removed stay what they were. -/
theorem retireRuns_moves :
    Ensures answers (Reached isUuid scope origin) retireRuns
      (fun _ => Reached isUuid scope origin) (Reached isUuid scope origin) := by
  refine .known fun actor reached => .thenRead ?_
  have removes : Ensures answers (fun last => Reached isUuid scope origin last ∧
      ∀ (key : String) (slot : Slot), last.slots[key]? = some slot → actor.slots[key]? = some slot)
      ((allBut maxRetired (actor.endedFirst Slot.retirable)).forM fun session =>
        Procedure.update (removeSlot session) : Act Unit)
      (fun _ last => Reached isUuid scope origin last ∧
        ∀ (key : String) (slot : Slot), last.slots[key]? = some slot → actor.slots[key]? = some slot)
      (Reached isUuid scope origin) := by
    refine .forM_mem fun session listed => .update fun last ⟨moved, same⟩ => ⟨?_, ?_⟩
    · refine moved.tail (.retired fun slot found => ?_)
      obtain ⟨ended, there, retirable⟩ := endedFirst_mem (List.mem_of_mem_take listed)
      obtain rfl := Option.some.inj (there.symm.trans (same session slot found))
      exact retirable
    · intro key slot found
      rw [removeSlot, erase_get] at found
      split at found
      · cases found
      · exact same key slot found
  exact .thenCall removes ⟨reached, fun _ _ => id⟩ fun _ _ moved => .done moved.1

/-- The definition of an ended transient terminal may be forgotten, also a second time. -/
theorem forgetDefinitions_moves :
    Ensures answers (Reached isUuid scope origin) forgetDefinitions
      (fun _ => Reached isUuid scope origin) (Reached isUuid scope origin) := by
  refine .known fun actor reached => .thenRead ?_
  let forgets (last : Actor) : Prop := ∀ session ∈
    actor.endedFirst (fun slot => slot.transient && !slot.isLive), ∀ slot,
      last.slots[session]? = some slot → slot.isLive = false ∧
        (slot.transient = true ∨ slot.purpose = .terminal none)
  have each : Ensures answers (fun last => Reached isUuid scope origin last ∧ forgets last)
      (((actor.endedFirst fun slot => slot.transient && !slot.isLive).take
        ((actor.slots.toList.filter (·.2.transient)).length - maxTerminals)).forM fun session =>
          updateSlot session fun slot => { slot with purpose := .terminal none })
      (fun _ last => Reached isUuid scope origin last ∧ forgets last)
      (Reached isUuid scope origin) := by
    refine .forM_mem fun session listed => .update fun last ⟨moved, known⟩ => ⟨?_, ?_⟩
    · refine moved.tail (slots_modified fun slot found => ?_)
      obtain ⟨ended, transient | forgotten⟩ := known session (List.mem_of_mem_take listed) slot found
      · exact .single (.forgotten ended transient)
      · rw [← forgotten]
    · intro other member slot found
      rw [modifySlot_get] at found
      split at found
      · obtain ⟨before, there, rfl⟩ := Option.map_eq_some_iff.mp found
        exact ⟨(known other member before there).1, .inr rfl⟩
      · exact known other member slot found
  refine .tail (each.consequence (fun _ => id) (fun _ _ ends => ends.1) fun _ => id) ⟨reached, ?_⟩
  intro session listed slot found
  obtain ⟨ended, there, holds⟩ := endedFirst_mem listed
  obtain rfl := Option.some.inj (there.symm.trans found)
  simp only [Bool.and_eq_true, Bool.not_eq_true'] at holds
  exact ⟨holds.2, .inl holds.1⟩

theorem saveTick_moves (changed : Bool) :
    Ensures answers (Reached isUuid scope origin) (saveTick isUuid changed)
      (fun _ => Reached isUuid scope origin) (Reached isUuid scope origin) := by
  refine .known fun actor reached => .branch (fun _ => thenPersist fun outcome => ?_) fun _ =>
    .done reached
  have saved := reached.tail (.opening .saved)
  cases outcome with
  | ok done => exact .done saved
  | error error =>
    refine .updated (saved.tail (slots_mapped fun key slot _ => ?_))
    split
    · exact .single .noted
    · exact .refl

/-! ## Default-open batches -/

theorem opens_quiescing {start : Actor} (opens : Opens isUuid scope start actor) :
    actor.quiescing = start.quiescing := by
  induction opens with
  | refl => rfl
  | tail _ opening inductionHypothesis =>
    refine Eq.trans ?_ inductionHypothesis
    cases opening <;> rfl

/-- Terminals are started while no batch is looked at. -/
def Opened (isUuid : IsUuid) (scope : Scope) (start actor : Actor) : Prop :=
  Opens isUuid scope start actor ∧ actor.batches = start.batches

theorem batchStart_ends (ground : Ground isUuid scope.begun actor)
    (loads : actor.Loads isUuid answers) {project terminal : String}
    (uuid : isUuid project = true) (allowed : scope.starts project terminal) :
    Ensures answers (· = actor) (startSaved isUuid project terminal false)
      (fun _ => Opened isUuid scope actor) (Opened isUuid scope actor) :=
  (Ensures.beside (startSaved_opens ground loads uuid allowed false)
    (startSaved_beside _ _ _)).consequence (fun _ => id) (fun _ _ ends => ⟨ends.1, ends.2.batches⟩) fun _ ends => ⟨ends.1, ends.2.batches⟩

/-- What a batch needs so that its next terminal may be started. -/
structure Batch.Allowed (isUuid : IsUuid) (scope : Scope) (batch : Batch) : Prop where
  project : isUuid batch.info.projectId = true
  starts : ∀ terminal ∈ batch.info.remaining, scope.starts batch.info.projectId terminal

theorem next_ends (ground : Ground isUuid scope.begun actor) (loads : actor.Loads isUuid answers)
    {batch : Batch} (allowed : batch.Allowed isUuid scope) :
    Ensures answers (· = actor) (batch.next isUuid)
      (fun after last => Opened isUuid scope actor last ∧ batch.Follows after false)
      (Opened isUuid scope actor) := by
  have same : Opened isUuid scope actor actor := ⟨.refl, rfl⟩
  unfold Batch.next
  dsimp only
  cases remaining : batch.info.remaining with
  | nil => exact .done ⟨same, rfl, by simp [remaining], .inl rfl⟩
  | cons terminal rest =>
    have starts := allowed.starts terminal (by simp [remaining])
    have fewer : rest ⊆ batch.info.remaining := by simp [remaining]
    refine .thenAttempt (batchStart_ends ground loads allowed.project starts) rfl ?_ ?_
    · intro info last opened
      exact thenNow fun time => .done ⟨opened, rfl, fewer, .inr rfl⟩
    · intro error last opened
      exact .done ⟨opened, rfl, fewer, .inl rfl⟩

theorem batchTick_ends (ground : Ground isUuid scope.begun actor)
    (loads : actor.Loads isUuid answers) {batch : Batch} (allowed : batch.Allowed isUuid scope) :
    Ensures answers (· = actor) (batch.tick isUuid)
      (fun after last => Opened isUuid scope actor last ∧ batch.Follows after false)
      (Opened isUuid scope actor) := by
  have same : Opened isUuid scope actor actor := ⟨.refl, rfl⟩
  have goes := next_ends ground loads allowed
  unfold Batch.tick
  refine .branch (fun _ => .done ⟨same, .refl batch _⟩) fun _ => ?_
  cases batch.info.waitingSession with
  | none => exact goes
  | some session =>
    refine .thenRead ?_
    cases waitingFor session actor.slots[session]? with
    | ready => exact goes
    | failed terminal error =>
      have noted : (batch.note terminal error).Allowed isUuid scope :=
        ⟨allowed.project, allowed.starts⟩
      exact (next_ends ground loads noted).consequence (fun _ => id)
        (fun _ _ ends => ⟨ends.1, ends.2.project, ends.2.remaining, .inr rfl⟩) fun _ => id
    | longer =>
      refine thenNow fun time => .branch (fun _ => .done ⟨same, ?_⟩) fun _ => .done ⟨same, .refl batch _⟩
      exact ⟨rfl, List.Subset.refl _, .inl rfl⟩

/-- What holds while some batches are still to be looked at. -/
structure Batching (isUuid : IsUuid) (scope : Scope) (start : Actor)
    (rest : List (String × Batch)) (actor : Actor) : Prop where
  opens : Opens isUuid scope start actor
  serving : actor.quiescing = false
  apart : rest.Pairwise fun one other => one.1 ≠ other.1
  same : ∀ entry ∈ rest, actor.batches[entry.1]? = some entry.2

theorem tickBatch_opens (ground : Ground isUuid scope.begun origin)
    (ticking : Ticking isUuid scope origin answers) {start : Actor}
    (begun : Reached isUuid scope origin start) (entry : String × Batch)
    (rest : List (String × Batch)) :
    Ensures answers (Batching isUuid scope start (entry :: rest))
      (do
        let batch ← entry.2.tick isUuid
        setBatch entry.1 batch : Act Unit)
      (fun _ => Batching isUuid scope start rest) (Opens isUuid scope start) := by
  refine .known fun actor batching => ?_
  have reached := batching.opens.reached begun
  have grounded := ground.reached reached
  have found := batching.same entry List.mem_cons_self
  have allowed : entry.2.Allowed isUuid scope :=
    ⟨grounded.batches _ _ found, ticking.starts actor reached entry.1 entry.2 found⟩
  have loads : actor.Loads isUuid answers := fun asked projects load project listed => by
    obtain ⟨valid, foreign⟩ := ticking.covers.loads asked projects load project listed
    exact ⟨valid, fun terminal member => (later_of_reached reached).foreign (foreign terminal member)⟩
  obtain ⟨others, apart⟩ := List.pairwise_cons.mp batching.apart
  refine .thenCall ((batchTick_ends grounded loads allowed).relax
    fun last opened => batching.opens.trans opened.1) rfl ?_
  rintro batch last ⟨⟨opens, batches⟩, follows⟩
  have serving : last.quiescing = false := (opens_quiescing opens).trans batching.serving
  refine .updated ⟨?_, serving, apart, ?_⟩
  · refine (batching.opens.trans opens).tail (setBatch_opening (batches ▸ found) ?_)
    exact ⟨follows.project, follows.remaining, .inr serving⟩
  · intro other listed
    simp only [insert_get, others other listed, if_false, batches]
    exact batching.same other (List.mem_cons_of_mem _ listed)

/-- All that the batches do is to open terminals. -/
theorem startBatches_opens (ground : Ground isUuid scope.begun origin)
    (ticking : Ticking isUuid scope origin answers) (reached : Reached isUuid scope origin actor) :
    Ensures answers (· = actor) (startBatches isUuid) (fun _ => Opens isUuid scope actor)
      (Opens isUuid scope actor) := by
  refine .thenRead (.thenCall ((now_ends actor).relax fun _ => False.elim) rfl
    fun time last same => ?_)
  rw [same]
  refine .branch (fun due => .thenUpdate (.thenRead ?_)) fun _ => .done .refl
  have serving : actor.quiescing = false := by
    simp only [Bool.and_eq_true, Bool.not_eq_true'] at due
    exact due.1
  have each := Ensures.forM_rest (tickBatch_opens ground ticking reached) actor.batches.toList
  refine .tail (each.consequence (fun _ => id) (fun _ _ ends => ends.opens) fun _ => id)
    ⟨?_, serving, toList_distinct actor.batches, ?_⟩
  · exact .single (.batched fun id batch found => .inl ⟨batch, found, .refl batch _⟩)
  · exact fun entry listed => Std.TreeMap.mem_toList_iff_getElem?_eq_some.mp listed

theorem startBatches_moves (ground : Ground isUuid scope.begun origin)
    (ticking : Ticking isUuid scope origin answers) :
    Ensures answers (Reached isUuid scope origin) (startBatches isUuid)
      (fun _ => Reached isUuid scope origin) (Reached isUuid scope origin) :=
  .known fun _ reached => (startBatches_opens ground ticking reached).consequence (fun _ => id)
    (fun _ _ opens => opens.reached reached) fun _ opens => opens.reached reached

/-! ## One tick -/

/-- The first half of a tick: the workers are heard. -/
theorem pollWorkers_moves (ground : Ground isUuid scope.begun origin)
    (ticking : Ticking isUuid scope origin answers) :
    Ensures answers (Reached isUuid scope origin) (pollWorkers isUuid)
      (fun _ => Reached isUuid scope origin) (Reached isUuid scope origin) := by
  have runs : Ensures answers (Reached isUuid scope origin) (pollRuns isUuid)
      (fun _ => Reached isUuid scope origin) (Reached isUuid scope origin) :=
    (rounds_moves (pollRun_moves ground ticking) 16).bind fun _ =>
      markRunsDead_moves.bind fun _ => retryCancels_moves
  have gits : Ensures answers (Reached isUuid scope origin) (do
      let answers ← Procedure.answer
      onGit (Git.tick answers.gitTicks answers.gitReceives) : Act Unit)
      (fun _ => Reached isUuid scope origin) (Reached isUuid scope origin) :=
    .known fun actor reached => .thenAsk fun asked => within_moves reached (Git.tick_within _ _)
  refine runs.bind fun _ => (rounds_moves (pollLaunch_moves ground ticking) 8).bind fun _ => ?_
  exact gits.bind fun _ => pollChildInventory_moves

theorem tickSlots_moves (ticking : Ticking isUuid scope origin answers) :
    Ensures answers (Reached isUuid scope origin) tickSlots
      (fun _ => Reached isUuid scope origin) (Reached isUuid scope origin) :=
  .known fun _ reached => .thenRead (.tail (tickEach_moves ticking.covers.reaps _ _) reached)

theorem tick_moves (ground : Ground isUuid scope.begun origin)
    (ticking : Ticking isUuid scope origin answers) :
    Ensures answers (· = origin) (tick isUuid) (fun _ => Reached isUuid scope origin)
      (Reached isUuid scope origin) := by
  refine .tail ?_ (ReflTransGen.refl : Reached isUuid scope origin origin)
  refine (pollWorkers_moves ground ticking).bind fun _ => ?_
  refine (tickSlots_moves ticking).bind fun exited => finishRuns_moves.bind fun _ => ?_
  refine scheduleChildInventory_moves.bind fun _ => evictScreens_moves.bind fun _ => ?_
  refine retireRuns_moves.bind fun retired => forgetDefinitions_moves.bind fun _ => ?_
  exact (saveTick_moves _).bind fun _ => startBatches_moves ground ticking

end Idk.Host
