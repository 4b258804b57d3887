import Idk.Verified.Host.Hearing

/-!
# What is in the channels of the workers

A worker that is dead has left nothing to do, and once it has been found dead nothing to
hear.  While the death of the preparation worker strikes no run or editor, every session
whose preparation has not been heard of is still waiting for it, once.

**Main results:**

- `Workers.change`: every change keeps what is known of the channels.
- `Timely.change`: so does, of the sessions that wait, every change that strikes none of them.
-/

namespace Idk.Host

open Idk.Logic
open Relation (ReflTransGen)
open Actor

/-- What the channels of a dead worker hold. -/
structure Actor.Workers (actor : Actor) : Prop where
  launching : actor.launching.alive = false → actor.launching.jobs = []
  launchDead : actor.launchDead = true →
    actor.launching.alive = false ∧ actor.launching.results = []
  working : actor.runs.alive = false → actor.runs.working = []
  dead : actor.runs.dead = true → actor.runs.alive = false ∧ actor.runs.events = []
  runsDead : actor.runsDead = true → actor.runs.dead = true

variable {isUuid : IsUuid} {scope : Scope} {origin actor after : Actor}

theorem Opening.workers (opening : Opening isUuid scope actor after) (workers : actor.Workers) :
    after.Workers := by
  cases opening with
  | drew | saved | startFailed | batched =>
    exact ⟨workers.launching, workers.launchDead, workers.working, workers.dead, workers.runsDead⟩
  | started starts worked =>
    refine ⟨fun dead => ?_, workers.launchDead, workers.working, workers.dead, workers.runsDead⟩
    rw [show actor.launching.alive = false from dead] at worked
    cases worked

theorem markDead_channels (runs : RunBridge) :
    runs.markDead.alive = runs.alive ∧ runs.markDead.working = runs.working ∧
      runs.markDead.events = runs.events ∧ runs.markDead.dead = true := by
  unfold RunBridge.markDead
  split
  · exact ⟨rfl, rfl, rfl, ‹_›⟩
  · exact ⟨rfl, rfl, rfl, rfl⟩

theorem Actor.Workers.change (workers : actor.Workers) (change : Change isUuid scope actor after) :
    after.Workers := by
  have gives {alive : Bool} (worked : alive = true) (dead : alive = false) : False := by
    rw [dead] at worked
    cases worked
  cases change with
  | opening opening => exact opening.workers workers
  | slots | cells | signalled | leaderExited | leaderReaped | typed | jobs | scanned | reported
  | scanLost | git | closing | declined | retired =>
    exact ⟨workers.launching, workers.launchDead, workers.working, workers.dead, workers.runsDead⟩
  | attached =>
    split <;>
      exact ⟨workers.launching, workers.launchDead, workers.working, workers.dead, workers.runsDead⟩
  | gave _ worked | finishSent _ _ worked | admitted _ worked =>
    exact ⟨workers.launching, workers.launchDead, fun dead => (gives worked dead).elim, workers.dead,
      workers.runsDead⟩
  | eventTaken next | finishHeard next =>
    refine ⟨workers.launching, workers.launchDead, workers.working, fun dead => ?_, workers.runsDead⟩
    have empty := (workers.dead dead).2
    rw [next] at empty
    cases empty
  | runsMarked lost =>
    obtain ⟨alive, working, events, dead⟩ := markDead_channels actor.runs
    refine ⟨workers.launching, workers.launchDead, fun dead => ?_, fun _ => ?_, fun _ => dead⟩
    · rw [working]
      exact workers.working (alive ▸ dead)
    · exact ⟨alive.trans lost.1, events.trans lost.2⟩
  | runsDied dead =>
    exact ⟨workers.launching, workers.launchDead, workers.working, workers.dead, fun _ => dead⟩
  | launchTaken next =>
    refine ⟨workers.launching, fun dead => ?_, workers.working, workers.dead, workers.runsDead⟩
    have empty := (workers.launchDead dead).2
    rw [next] at empty
    cases empty
  | launchDied lost =>
    exact ⟨workers.launching, fun _ => lost, workers.working, workers.dead, workers.runsDead⟩

theorem Actor.Workers.reached (workers : origin.Workers) (reached : Reached isUuid scope origin actor) :
    actor.Workers := by
  induction reached with
  | refl => exact workers
  | tail _ change inductionHypothesis => exact inductionHypothesis.change change

/-! ## The sessions that wait -/

section Waiting

/-- The session is as far in its life as before. -/
structure Slot.SameLife (before after : Slot) : Prop where
  state : after.info.state = before.info.state
  preparing : after.preparing = before.preparing
  runtime : after.runtime = before.runtime
  exit : after.info.exit = before.info.exit
  runFinalization : after.runFinalization = before.runFinalization

theorem cleanupNotice_life (slot : Slot) (message : String) :
    slot.SameLife (slot.cleanupNotice message) := by
  unfold Slot.cleanupNotice
  split <;> exact ⟨rfl, rfl, rfl, rfl, rfl⟩

theorem inventory_life (slot : Slot) (runsDead : Bool) (host : Pid)
    (answer : Pid → ChildAnswer) (report : Report) (anchor : Anchor) :
    slot.SameLife (slot.inventory runsDead host answer report anchor).1 := by
  have noticed {changed : Slot} (same : slot.SameLife changed) (message : String) :
      slot.SameLife (changed.cleanupNotice message) := by
    have kept := cleanupNotice_life changed message
    exact ⟨kept.state.trans same.state, kept.preparing.trans same.preparing,
      kept.runtime.trans same.runtime, kept.exit.trans same.exit,
      kept.runFinalization.trans same.runFinalization⟩
  simp only [Slot.inventory]
  split
  · refine noticed ?_ _
    exact ⟨rfl, rfl, rfl, rfl, rfl⟩
  · split
    · refine noticed ?_ _
      exact ⟨rfl, rfl, rfl, rfl, rfl⟩
    · exact ⟨rfl, rfl, rfl, rfl, rfl⟩

theorem observeExit_preparing (slot : Slot) (exit : TerminalExit) (now : Nat) :
    (slot.observeExit exit now).preparing = slot.preparing := by
  unfold Slot.observeExit
  split
  · exact (cleanupNotice_life _ _).preparing
  · rfl

theorem forgetSaved_life (slot : Slot) : slot.SameLife slot.forgetSaved := by
  unfold Slot.forgetSaved
  split <;> exact ⟨rfl, rfl, rfl, rfl, rfl⟩

theorem attach_life {slot after : Slot} {client : String} {takeover : Bool}
    (done : slot.attach client takeover = .ok after) : slot.SameLife after := by
  unfold Slot.attach at done
  split at done
  · obtain ⟨_, _, done⟩ := bind_eq_ok.mp done
    split at done
    · cases done
      exact ⟨rfl, rfl, rfl, rfl, rfl⟩
    · obtain ⟨advanced, one, done⟩ := bind_eq_ok.mp done
      obtain ⟨epoch, _, same⟩ := bind_eq_ok.mp one
      cases same
      cases done
      exact ⟨rfl, rfl, rfl, rfl, rfl⟩
  · cases done
    exact ⟨rfl, rfl, rfl, rfl, rfl⟩

theorem detach_life {slot after : Slot} {client : String} {epoch : Nat}
    (done : slot.detach client epoch = .ok after) : slot.SameLife after := by
  unfold Slot.detach at done
  split at done
  · obtain ⟨_, _, done⟩ := bind_eq_ok.mp done
    obtain ⟨advanced, one, done⟩ := bind_eq_ok.mp done
    obtain ⟨epoch, _, same⟩ := bind_eq_ok.mp one
    cases same
    cases done
    exact ⟨rfl, rfl, rfl, rfl, rfl⟩
  · cases done
    exact ⟨rfl, rfl, rfl, rfl, rfl⟩

/-- A session that somebody still has to answer for goes on waiting. -/
theorem Slot.Step.waits {session : String} {slot last : Slot}
    (step : Slot.Step isUuid scope actor session slot last) (final : ¬ scope.revives)
    (pending : session ∈ actor.outstanding) : last.preparing = slot.preparing := by
  have answered {slot : Slot} (awaited : slot.Awaited scope actor session) : False :=
    (awaited.resolve_left final).2 pending
  cases step with
  | noted | requested | cancelAsked | uninitialized | bootstrapTaken | unbootstrapped | named
  | cancelConfirmed | retried | forgotten => rfl
  | inventoried => exact (inventory_life _ _ _ _ _ _).preparing
  | detached done => exact (detach_life done).preparing
  | unprepared _ awaited | accepted _ awaited | placeholder _ awaited | unstarted _ _ awaited =>
    exact (answered awaited).elim
  | exited => exact observeExit_preparing _ _ _
  | reaped => exact (forgetSaved_life _).preparing

theorem steps_waits {session : String} {slot last : Slot}
    (moves : ReflTransGen (Slot.Step isUuid scope actor session) slot last)
    (final : ¬ scope.revives) (pending : session ∈ actor.outstanding) :
    last.preparing = slot.preparing := by
  induction moves with
  | refl => rfl
  | tail _ step inductionHypothesis => exact (step.waits final pending).trans inductionHypothesis

/-- A worker has something to say of the session, which is of its kind. -/
theorem outstanding_owned (ground : Ground isUuid scope.begun actor) {session : String}
    (pending : session ∈ actor.outstanding) :
    (session ∈ actor.launching.jobs.map (·.session) ++ actor.launching.results.map (·.session) ∧
      actor.Owns [.terminal] session) ∨
    (session ∈ actor.runs.working.filterMap Work.session ++
        actor.runs.events.filterMap RunEvent.answered ∧ actor.Owns [.run, .editor] session) := by
  rcases List.mem_append.mp pending with shell | run
  · refine .inl ⟨shell, ?_⟩
    rcases List.mem_append.mp shell with listed | listed
    · obtain ⟨job, member, rfl⟩ := List.mem_map.mp listed
      exact ground.launching job member
    · obtain ⟨completed, member, rfl⟩ := List.mem_map.mp listed
      exact (ground.launched completed member).1
  · refine .inr ⟨run, ?_⟩
    rcases List.mem_append.mp run with listed | listed
    · obtain ⟨work, member, of⟩ := List.mem_filterMap.mp listed
      cases work with
      | request id request asked cancel => exact (ground.works _ member session of).1
      | cancel | finish => cases of
    · obtain ⟨event, member, of⟩ := List.mem_filterMap.mp listed
      unfold RunEvent.answered at of
      split at of
      · exact (ground.events event member).owner session of
      · cases of

theorem outstanding_foreign (ground : Ground isUuid scope.begun actor) {session : String}
    (pending : session ∈ actor.outstanding) : actor.Foreign session := by
  rcases outstanding_owned ground pending with ⟨-, owns⟩ | ⟨-, owns⟩
  · exact owns.foreign
  · exact owns.foreign

theorem Actor.Timely.fewer (timely : actor.Timely)
    (fewer : after.outstanding.Sublist actor.outstanding)
    (waits : ∀ session ∈ after.outstanding, ∀ slot, after.slots[session]? = some slot →
      ∃ before, actor.slots[session]? = some before ∧
        (before.preparing = true → slot.preparing = true)) : after.Timely := by
  refine ⟨timely.1.sublist fewer, fun session pending slot found => ?_⟩
  obtain ⟨before, there, still⟩ := waits session pending slot found
  exact still (timely.2 session (fewer.subset pending) before there)

/-- The slots are the same wherever somebody is waited for. -/
theorem Actor.Timely.beside (timely : actor.Timely)
    (fewer : after.outstanding.Sublist actor.outstanding)
    (same : ∀ (key : String) (slot : Slot), after.slots[key]? = some slot →
      ∃ before, actor.slots[key]? = some before ∧ slot.preparing = before.preparing) :
    after.Timely :=
  timely.fewer fewer fun session _ slot found => by
    obtain ⟨before, there, kept⟩ := same session slot found
    exact ⟨before, there, fun waits => kept.trans waits⟩

/-- A new session waits. -/
theorem Actor.Timely.more {session : String} (timely : actor.Timely)
    (new : session ∉ actor.outstanding)
    (more : after.outstanding.Perm (session :: actor.outstanding))
    (born : ∀ slot, after.slots[session]? = some slot → slot.preparing = true)
    (others : ∀ (key : String) (slot : Slot), session ≠ key → after.slots[key]? = some slot →
      actor.slots[key]? = some slot) : after.Timely := by
  refine ⟨more.nodup_iff.mpr (List.nodup_cons.mpr ⟨new, timely.1⟩), fun key pending slot found => ?_⟩
  rcases List.mem_cons.mp (more.mem_iff.mp pending) with rfl | pending
  · exact born slot found
  · have apart : session ≠ key := fun same => new (same ▸ pending)
    exact timely.2 key pending slot (others key slot apart found)

theorem modified_preparing {slots : BTreeMap Slot} {session : String} {change : Slot → Slot}
    (kept : ∀ slot, (change slot).preparing = slot.preparing) (key : String) (slot : Slot)
    (found : (slots.modify session change)[key]? = some slot) :
    ∃ before, slots[key]? = some before ∧ slot.preparing = before.preparing := by
  obtain ⟨before, there, rfl | ⟨-, rfl⟩⟩ := modified found
  · exact ⟨slot, there, rfl⟩
  · exact ⟨before, there, kept before⟩

theorem Opening.timely (ground : Ground isUuid scope.begun actor)
    (opening : Opening isUuid scope actor after) (timely : actor.Timely) : after.Timely := by
  cases opening with
  | drew | saved | batched => exact timely
  | startFailed starts same =>
    exact timely.beside (List.Sublist.refl _) fun key slot found =>
      ⟨slot, (same key).symm.trans found, rfl⟩
  | @started project terminal previous starts =>
    refine @Timely.more _ _ (actor.ids actor.nextId) timely ?_ ?_ ?_ ?_
    · exact fun pending => (outstanding_foreign ground pending).ne rfl
    · simp only [outstanding, opened, record, List.map_append, List.map_cons, List.map_nil,
        List.append_assoc, List.singleton_append]
      exact List.perm_middle
    · intro slot found
      simp only [opened_get, if_true] at found
      cases found
      rfl
    · intro key slot apart found
      simp only [opened_get, if_neg apart] at found
      split at found
      · cases found
      · exact found

/-- The death of a worker strikes no session that the other one has to answer for. -/
theorem Actor.Timely.died {change : Slot → Slot} (timely : actor.Timely)
    (spared : ∀ session ∈ actor.outstanding, ∀ slot, actor.slots[session]? = some slot →
      (change slot).preparing = slot.preparing)
    (same : after.outstanding = actor.outstanding)
    (slots : after.slots = actor.slots.map fun _ slot => change slot) : after.Timely := by
  refine timely.fewer (same ▸ List.Sublist.refl _) fun session pending slot found => ?_
  rw [slots, Std.TreeMap.getElem?_map] at found
  obtain ⟨before, there, rfl⟩ := Option.map_eq_some_iff.mp found
  exact ⟨before, there, fun waits => (spared session (same ▸ pending) before there).trans waits⟩

theorem runsDied_spares {slot : Slot} (now : Nat) (kind : slot.purpose.kind = .terminal) :
    (slot.runsDied now).preparing = slot.preparing := by
  unfold Slot.runsDied
  cases purpose : slot.purpose with
  | terminal definition => rfl
  | run | editor => simp [purpose, SlotPurpose.kind] at kind

theorem Actor.Timely.change (timely : actor.Timely) (workers : actor.Workers)
    (ground : Ground isUuid scope.begun actor) (final : ¬ scope.revives)
    (spares : ∀ session, ¬ scope.sweeps session)
    (change : Change isUuid scope actor after) : after.Timely := by
  have same : ∀ {slots : BTreeMap Slot}, slots = actor.slots → ∀ (key : String) (slot : Slot),
      slots[key]? = some slot → ∃ before, actor.slots[key]? = some before ∧
        slot.preparing = before.preparing :=
    fun equal key slot found => ⟨slot, equal ▸ found, rfl⟩
  cases change with
  | opening opening => exact opening.timely ground timely
  | cells | signalled | leaderExited | leaderReaped | typed | jobs | scanned | reported | scanLost
  | git | closing => exact timely
  | slots moves =>
    refine timely.fewer (List.Sublist.refl _) fun session pending slot found => ?_
    have pair := moves session
    rw [show _ = some slot from found] at pair
    cases there : actor.slots[session]? with
    | none =>
      rw [there] at pair
      cases pair
    | some before =>
      rw [there] at pair
      cases pair with
      | some moves =>
        exact ⟨before, rfl, fun waits => (steps_waits moves final pending).trans waits⟩
  | @attached session client takeover old new there done =>
    have kept : ∀ (key : String) (slot : Slot), (setSlot session new actor).slots[key]? = some slot →
        ∃ before, actor.slots[key]? = some before ∧ slot.preparing = before.preparing := by
      intro key slot found
      rw [setSlot, insert_get] at found
      split at found
      · cases found
        exact ⟨old, ‹session = key› ▸ there, (attach_life done).preparing⟩
      · exact ⟨slot, found, rfl⟩
    split <;> exact timely.beside (List.Sublist.refl _) kept
  | @gave work gives worked =>
    refine timely.beside ?_ (same rfl)
    have quiet : work.session = none := by cases gives <;> rfl
    simp [outstanding, RunBridge.give, List.filterMap_append, quiet]
  | @finishSent session runId now slot partialOutput found owed =>
    refine timely.beside ?_ (modified_preparing fun _ => rfl)
    simp [outstanding, RunBridge.give, record, modifySlot, List.filterMap_append, Work.session]
  | @finishHeard session event rest pending next of finish =>
    refine timely.beside ?_ (modified_preparing fun _ => rfl)
    have quiet : event.answered = none := by simp [RunEvent.answered, finish.1]
    simp [outstanding, record, modifySlot, next, quiet]
  | eventTaken next =>
    refine timely.beside ?_ (same rfl)
    simp only [outstanding, next]
    exact ((List.sublist_cons_self _ _).filterMap _).append_left _ |>.append_left _
  | runsMarked =>
    obtain ⟨-, working, events, -⟩ := markDead_channels actor.runs
    refine timely.beside ?_ (same rfl)
    simp [outstanding, working, events]
  | runsDied dead =>
    obtain ⟨alive, events⟩ := workers.dead dead
    refine timely.died (fun session pending slot found => ?_) rfl rfl
    rcases outstanding_owned ground pending with ⟨-, owns⟩ | ⟨listed, -⟩
    · exact runsDied_spares _ (by simpa using owns.kind slot found)
    · simp [workers.working alive, events] at listed
  | launchTaken next =>
    refine timely.beside ?_ (same rfl)
    simp only [outstanding, next]
    exact (((List.sublist_cons_self _ _).map _).append_left _).append_right _
  | launchDied lost hits =>
    refine timely.died (fun session pending slot found => ?_) rfl rfl
    rcases outstanding_owned ground pending with ⟨listed, -⟩ | ⟨-, owns⟩
    · simp [workers.launching lost.1, lost.2] at listed
    · have waits := timely.2 session pending slot found
      have terminal := (hits session slot found waits).resolve_right (spares session)
      have kind := owns.kind slot found
      simp [(SlotPurpose.isTerminal_iff _).mp terminal] at kind
  | @admitted project name purpose request admits worked =>
    refine @Timely.more _ _ (actor.ids actor.nextId) timely ?_ ?_ ?_ ?_
    · exact fun pending => (outstanding_foreign ground pending).ne rfl
    · simp only [outstanding, reserved, record, setSlot, RunBridge.give, List.filterMap_append,
        List.filterMap_cons, List.filterMap_nil, Work.session, List.append_assoc,
        List.singleton_append]
      simp only [← List.append_assoc]
      exact List.perm_middle
    · intro slot found
      simp only [reserved_get, if_true] at found
      cases found
      rfl
    · intro key slot apart found
      simpa only [reserved_get, if_neg apart] using found
  | declined admits same_ =>
    exact timely.beside (List.Sublist.refl _) fun key slot found =>
      ⟨slot, (same_ key).symm.trans found, rfl⟩
  | @retired session =>
    refine timely.beside (List.Sublist.refl _) fun key slot found => ?_
    rw [removeSlot, erase_get] at found
    split at found
    · cases found
    · exact ⟨slot, found, rfl⟩

end Waiting

theorem Actor.Timely.reached (timely : origin.Timely) (workers : origin.Workers)
    (ground : Ground isUuid scope.begun origin) (final : ¬ scope.revives)
    (spares : ∀ session, ¬ scope.sweeps session)
    (reached : Reached isUuid scope origin actor) : actor.Timely := by
  induction reached with
  | refl => exact timely
  | tail before change inductionHypothesis =>
    exact inductionHypothesis.change (workers.reached before) (ground.reached before) final spares
      change

end Idk.Host
