import Idk.Verified.Host.Ended

/-!
# The epochs of input

Each grant of a session's input has a greater epoch than all that were granted before, and
nothing is typed under an older one.

**Main result:** `epochs_grow`.
-/

namespace Idk.Host

open Idk.Logic
open Relation (ReflTransGen)
open Actor

variable {isUuid : IsUuid} {formats : Git.GitFormats} {scope : Scope} {origin actor after : Actor}

/-! ## One session -/

/-- The epoch of the input does not fall. -/
def Slot.Ages (slot last : Slot) : Prop := slot.info.inputEpoch ≤ last.info.inputEpoch

theorem Slot.Ages.of_eq {slot last : Slot} (same : last.info.inputEpoch = slot.info.inputEpoch) :
    slot.Ages last := Nat.le_of_eq same.symm

theorem cleanupNotice_epoch (slot : Slot) (message : String) :
    (slot.cleanupNotice message).info.inputEpoch = slot.info.inputEpoch := by
  unfold Slot.cleanupNotice
  split <;> rfl

theorem forgetSaved_epoch (slot : Slot) :
    slot.forgetSaved.info.inputEpoch = slot.info.inputEpoch := by
  unfold Slot.forgetSaved
  split <;> rfl

theorem inventory_epoch (slot : Slot) (runsDead : Bool) (host : Pid) (answer : Pid → ChildAnswer)
    (report : Report) (anchor : Anchor) :
    (slot.inventory runsDead host answer report anchor).1.info.inputEpoch =
      slot.info.inputEpoch := by
  unfold Slot.inventory
  dsimp only
  split
  · exact cleanupNotice_epoch _ _
  · split
    · exact cleanupNotice_epoch _ _
    · rfl

theorem advanceEpoch_ends {slot last : Slot} (done : slot.advanceEpoch = .ok last) :
    last = { slot with info.inputEpoch := slot.info.inputEpoch + 1 } := by
  obtain ⟨epoch, next, same⟩ := bind_eq_ok.mp done
  cases same
  have succ := context_eq_ok.mp next
  unfold Git.checkedSucc at succ
  split at succ
  · cases succ
    rfl
  · cases succ

theorem detach_ages {slot last : Slot} {client : String} {epoch : Nat}
    (done : slot.detach client epoch = .ok last) : slot.Ages last := by
  unfold Slot.detach at done
  split at done
  · obtain ⟨_, _, done⟩ := bind_eq_ok.mp done
    obtain ⟨middle, next, done⟩ := bind_eq_ok.mp done
    obtain rfl := advanceEpoch_ends next
    cases done
    exact Nat.le_succ _
  · cases done
    exact .of_eq rfl

theorem attach_ages {slot last : Slot} {client : String} {takeover : Bool}
    (done : slot.attach client takeover = .ok last) : slot.Ages last := by
  unfold Slot.attach at done
  split at done
  · obtain ⟨_, _, done⟩ := bind_eq_ok.mp done
    split at done
    · cases done
      exact .of_eq rfl
    · obtain ⟨middle, next, done⟩ := bind_eq_ok.mp done
      obtain rfl := advanceEpoch_ends next
      cases done
      exact Nat.le_succ _
  · cases done
    exact .of_eq rfl

theorem Slot.Step.ages {session : String} {slot last : Slot}
    (step : Slot.Step isUuid scope actor session slot last) : slot.Ages last := by
  cases step with
  | noted | requested | cancelAsked | accepted | uninitialized | bootstrapTaken | unbootstrapped
  | named | cancelConfirmed | retried | forgotten | placeholder => exact .of_eq rfl
  | inventoried => exact .of_eq (inventory_epoch _ _ _ _ _ _)
  | detached done => exact detach_ages done
  | unprepared | reaped => exact .of_eq (forgetSaved_epoch _)
  | @unstarted cancelled run =>
    cases run <;> exact .of_eq rfl
  | exited =>
    unfold Slot.observeExit
    split
    · exact .of_eq (cleanupNotice_epoch _ _)
    · exact .of_eq rfl

theorem runsDied_epoch (slot : Slot) (now : Nat) :
    (slot.runsDied now).info.inputEpoch = slot.info.inputEpoch := by
  unfold Slot.runsDied
  split
  · dsimp only
    split <;> rfl
  · split <;> rfl
  · split <;> rfl
  · rfl

theorem launchDied_epoch (slot : Slot) (now : Nat) :
    (slot.launchDied now).info.inputEpoch = slot.info.inputEpoch := by
  unfold Slot.launchDied
  split
  · exact forgetSaved_epoch _
  · rfl

theorem Slot.Moved.ages {session : String} {slot last : Slot}
    (moved : Slot.Moved isUuid scope actor session slot last) : slot.Ages last := by
  cases moved with
  | steps moves =>
    induction moves with
    | refl => exact .of_eq rfl
    | tail _ step inductionHypothesis => exact inductionHypothesis.trans step.ages
  | attached done => exact attach_ages done
  | finishing | finishAnswered => exact .of_eq rfl
  | runsDied => exact .of_eq (runsDied_epoch _ _)
  | launchDied => exact .of_eq (launchDied_epoch _ _)

/-! ## The history -/

/-- The epochs that were granted for the session are at most this one. -/
def GrantedBelow (history : List Happening) (session : String) (epoch : Nat) : Prop :=
  ∀ (client : String) (earlier : Nat), .granted session client earlier ∈ history → earlier ≤ epoch

/-- Each grant is later than those before it, and nothing is typed under an older one. -/
def GrantsInOrder : List Happening → Prop
  | [] => True
  | .granted session _ epoch :: before =>
    (∃ last, last < epoch ∧ GrantedBelow before session last) ∧ GrantsInOrder before
  | .typed session _ epoch :: before => GrantedBelow before session epoch ∧ GrantsInOrder before
  | _ :: before => GrantsInOrder before

/-- What the history says of the slots. -/
structure Actor.Granting (actor : Actor) : Prop where
  ordered : GrantsInOrder actor.history
  foreign : ∀ (session client : String) (epoch : Nat),
    .granted session client epoch ∈ actor.history → actor.Foreign session
  below : ∀ (session : String) (slot : Slot), actor.slots[session]? = some slot →
    GrantedBelow actor.history session slot.info.inputEpoch

/-- Nothing is granted or typed. -/
theorem Actor.Granting.quiet (granting : actor.Granting) (change : Change isUuid scope actor after)
    (ordered : GrantsInOrder after.history)
    (same : ∀ (session client : String) (epoch : Nat),
      .granted session client epoch ∈ after.history →
        .granted session client epoch ∈ actor.history) : after.Granting where
  ordered := ordered
  foreign session client epoch member :=
    change.later.foreign (granting.foreign session client epoch (same session client epoch member))
  below session slot found client epoch member := by
    have before := same session client epoch member
    rcases change.slot found with ⟨first, there, moved⟩ | born
    · exact (granting.below session first there client epoch before).trans moved.ages
    · -- the id of a new session is in no earlier grant
      exact absurd born.key.symm (granting.foreign session client epoch before).ne

theorem Change.granting (ground : Ground isUuid scope.begun actor) (granting : actor.Granting)
    (change : Change isUuid scope actor after) : after.Granting := by
  have quiet := granting.quiet change
  cases change with
  | @attached session client takeover slot last found done =>
    split
    · rename_i moved
      have ages := attach_ages done
      have grows : slot.info.inputEpoch < last.info.inputEpoch :=
        lt_of_le_of_ne ages fun same => by simp [same] at moved
      refine ⟨⟨⟨_, grows, granting.below session slot found⟩, granting.ordered⟩,
        fun other holder epoch member => ?_, fun other second there holder epoch member => ?_⟩
      · rcases List.mem_cons.mp member with same | before
        · cases same
          exact (ground.foreign session slot found).1
        · exact granting.foreign other holder epoch before
      · have set : (setSlot session last actor).slots[other]? = some second := there
        rw [setSlot, insert_get] at set
        split at set
        · rename_i here
          subst here
          obtain rfl := Option.some.inj set
          rcases List.mem_cons.mp member with same | before
          · cases same
            exact Nat.le_refl _
          · exact (granting.below _ slot found holder epoch before).trans ages
        · rename_i apart
          rcases List.mem_cons.mp member with same | before
          · cases same
            exact absurd rfl apart
          · exact granting.below other second set holder epoch before
    · rename_i still
      rw [if_neg still] at quiet
      exact quiet granting.ordered fun _ _ _ member => member
  | @typed session client epoch disabled slot found accepted =>
    refine quiet ⟨?_, granting.ordered⟩ fun _ _ _ member => by simpa [record] using member
    obtain ⟨_, owner, -⟩ := bind_eq_ok.mp accepted
    have owns := ensure_eq_ok.mp owner
    simp only [Bool.and_eq_true, beq_iff_eq] at owns
    exact owns.2 ▸ granting.below session slot found
  | opening opening =>
    cases opening <;> exact quiet granting.ordered fun _ _ _ member => by
      simpa [record, opened] using member
  | _ =>
    exact quiet granting.ordered fun _ _ _ member => by
      simpa [record, reserved, setSlot, modifySlot, removeSlot] using member

theorem Actor.Granting.reached (granting : origin.Granting)
    (ground : Ground isUuid scope.begun origin) (reached : Reached isUuid scope origin actor) :
    actor.Granting := by
  induction reached with
  | refl => exact granting
  | tail before change inductionHypothesis =>
    exact change.granting (ground.reached before) inductionHypothesis

/-! ## Every run -/

variable {world later : World} {event : HostEvent}

theorem World.Step.granting (grounded : world.Grounded isUuid) (granting : world.actor.Granting)
    (step : World.Step isUuid formats world event later) : later.actor.Granting := by
  cases inside : event.inside with
  | false =>
    have outside := step.outside inside
    refine ⟨outside.history ▸ granting.ordered, fun session client epoch member => ?_,
      fun session slot found => ?_⟩
    · exact outside.foreign (granting.foreign session client epoch (outside.history ▸ member))
    · rw [outside.history]
      exact granting.below session slot (outside.slots ▸ found)
  | true =>
    exact granting.reached grounded.ground
      (@World.Step.reached _ _ _ _ _ True grounded (.inl trivial) inside step).1

theorem granting : (hostSystem isUuid formats).Invariant
    fun world => world.Grounded isUuid ∧ world.actor.Granting where
  initial _ initial := by
    obtain ⟨hostInstance, records, new⟩ := initial.new
    refine ⟨⟨initial.ground, initial.workers⟩, ?_, fun _ _ _ member => ?_,
      fun _ _ _ _ _ member => ?_⟩
    · rw [new.history]
      trivial
    · simp [new.history] at member
    · simp [new.history] at member
  preserved _ _ _ holds step :=
    ⟨World.Step.grounded holds.1 step, World.Step.granting holds.1 holds.2 step⟩

end Idk.Host
