import Idk.Verified.Host.Recorded

/-!
# How many ended sessions are kept

A tick forgets all but the last of the ended runs and editors that nothing is owed.  An editor
whose leader was reaped, or that the death of the preparation worker struck, counts as owed its
`Finish` for ever, and is never forgotten.

**Main result:** `retained_bounded`, where no editor ends so.
-/

namespace Idk.Host

open Idk.Logic
open Idk.Logic.Procedure (Ensures)
open Relation (ReflTransGen)
open Actor

variable {isUuid : IsUuid} {formats : Git.GitFormats} {scope : Scope} {origin actor after : Actor}
variable {answers : Nat → HostAnswers}

/-! ## Editors -/

/-- An ended editor, or an ended run whose `Finish` was acknowledged, with no process and none to
    come. -/
def Slot.retained (slot : Slot) : Bool :=
  !slot.isLive && !slot.preparing && slot.runtime.isNone &&
    match slot.purpose with
    | .editor => true
    | .run _ => slot.runFinalization == .done
    | .terminal _ => false

/-- Nothing is owed to an editor without a process. -/
def Slot.Settled (slot : Slot) : Prop :=
  slot.purpose = .editor → slot.preparing = false → slot.runtime = none →
    slot.runFinalization = .done

theorem Slot.Settled.retirable {slot : Slot} (settled : slot.Settled)
    (retained : slot.retained = true) : slot.retirable = true := by
  simp only [Slot.retained, Bool.and_eq_true, Bool.not_eq_true', Option.isNone_iff_eq_none]
    at retained
  obtain ⟨⟨⟨ended, waits⟩, gone⟩, kind⟩ := retained
  cases purpose : slot.purpose with
  | terminal definition => simp [purpose] at kind
  | run runId =>
    rw [purpose] at kind
    simp [Slot.retirable, purpose, SlotPurpose.isTerminal, ended, waits, gone, kind]
  | editor =>
    have done := settled purpose waits gone
    simp [Slot.retirable, purpose, SlotPurpose.isTerminal, ended, waits, gone, done]

theorem Slot.Settled.same {slot last : Slot} (settled : slot.Settled) (life : slot.SameLife last)
    (purpose : last.purpose = slot.purpose) : last.Settled := by
  intro editor waits gone
  rw [life.runFinalization]
  exact settled (purpose.symm.trans editor) (life.preparing.symm.trans waits)
    (life.runtime.symm.trans gone)

/-- What has a process, waits for one or is no editor. -/
theorem settled_of_not {slot : Slot}
    (other : slot.purpose ≠ .editor ∨ slot.preparing = true ∨ slot.runtime.isSome = true) :
    slot.Settled := by
  intro editor waits gone
  rcases other with kind | prepared | running
  · exact absurd editor kind
  · rw [waits] at prepared
    cases prepared
  · rw [gone] at running
    cases running

theorem settled_run {slot : Slot} {runId : Option String} (run : slot.purpose = .run runId) :
    slot.Settled :=
  settled_of_not (.inl (by simp [run]))

theorem SlotPurpose.editor_iff (purpose : SlotPurpose) :
    purpose = .editor ↔ purpose.kind = .editor := by
  cases purpose <;> simp [kind]

theorem forgetSaved_other {slot : Slot} (other : slot.purpose ≠ .editor) :
    slot.forgetSaved.purpose ≠ .editor := by
  unfold Slot.forgetSaved
  split
  · simp
  · exact other

theorem Slot.Step.settled {session : String} {slot last : Slot} (settled : slot.Settled)
    (unreaped : slot.purpose = .editor → ¬ scope.reaps session)
    (step : Slot.Step isUuid scope actor session slot last) : last.Settled := by
  cases step with
  | noted | requested | cancelAsked | cancelConfirmed | retried => exact settled
  | inventoried =>
    exact settled.same (inventory_life _ _ _ _ _ _) (slot.inventory_identity _ _ _ _ _).purpose
  | detached done => exact settled.same (detach_life done) (detach_identity done).purpose
  | unprepared kind =>
    refine settled_of_not (.inl (forgetSaved_other fun editor => ?_))
    have editor : slot.purpose = .editor := editor
    simp [editor, SlotPurpose.isTerminal] at kind
  | accepted => exact settled_of_not (.inr (.inr rfl))
  | uninitialized running =>
    exact settled_of_not (.inr (.inr (by simpa [Slot.uninitialized] using running)))
  | bootstrapTaken =>
    intro editor waits gone
    exact settled editor waits (by simpa [Slot.bootstrapTaken] using gone)
  | unbootstrapped running => exact settled_of_not (.inr (.inr running))
  | named => exact settled_run rfl
  | placeholder => exact fun _ _ _ => rfl
  | @unstarted cancelled run error now =>
    cases run with
    | none => exact fun _ _ _ => rfl
    | some run => exact settled_run rfl
  | exited running =>
    refine settled_of_not (.inr (.inr ?_))
    unfold Slot.observeExit
    split
    · exact (congrArg Option.isSome (cleanupNotice_life _ _).runtime).trans running
    · exact running
  | reaped observed clean running allowed =>
    refine settled_of_not (.inl (forgetSaved_other fun editor => ?_))
    exact unreaped editor allowed
  | forgotten => exact settled_of_not (.inl (by simp))

theorem runsDied_settled {slot : Slot} (settled : slot.Settled) (now : Nat) :
    (slot.runsDied now).Settled := by
  unfold Slot.runsDied
  split
  · rename_i run purpose
    refine settled_of_not (.inl ?_)
    dsimp only
    split <;> simp [purpose]
  · rename_i purpose
    refine settled_of_not (.inl ?_)
    split <;> simp [purpose, Slot.abandoned]
  · split
    · exact fun _ _ _ => rfl
    · exact settled
  · exact settled

theorem Slot.Moved.settled {session : String} {slot last : Slot} (settled : slot.Settled)
    (sound : Slot.Sound isUuid scope.begun session slot)
    (spared : slot.purpose.kind = .editor → ¬ scope.reaps session ∧ ¬ scope.sweeps session)
    (moved : Slot.Moved isUuid scope actor session slot last) : last.Settled := by
  cases moved with
  | steps moves =>
    induction moves with
    | refl => exact settled
    | tail before step inductionHypothesis =>
      have kind := (sound.moved (.steps before)).2.kind
      refine step.settled inductionHypothesis fun editor => ?_
      exact (spared (kind.symm.trans ((SlotPurpose.editor_iff _).mp editor))).1
  | attached done => exact settled.same (attach_life done) (attach_identity done).purpose
  | finishing owed =>
    exact settled_run (Slot.toFinish_run owed).1
  | finishAnswered kind =>
    refine settled_of_not (.inl fun editor => ?_)
    have editor : slot.purpose = .editor := editor
    simp [editor, SlotPurpose.isRun] at kind
  | runsDied => exact runsDied_settled settled _
  | launchDied hits =>
    unfold Slot.launchDied
    split
    · rename_i waits
      refine settled_of_not (.inl (forgetSaved_other fun editor => ?_))
      have editor : slot.purpose = .editor := editor
      rcases hits waits with terminal | struck
      · simp [editor, SlotPurpose.isTerminal] at terminal
      · exact (spared (by rw [editor]; rfl)).2 struck
    · exact settled

/-- Nothing is owed to any editor without a process. -/
def Actor.Settled (actor : Actor) : Prop :=
  ∀ (key : String) (slot : Slot), actor.slots[key]? = some slot → slot.Settled

variable (scope) in
/-- No editor may be reaped or struck. -/
def Actor.Lasting (actor : Actor) : Prop :=
  actor.Spares .editor fun session => scope.reaps session ∨ scope.sweeps session

theorem Change.settled (ground : Ground isUuid scope.begun actor) (settled : actor.Settled)
    (lasting : actor.Lasting scope) (change : Change isUuid scope actor after) :
    after.Settled := by
  intro key slot found
  rcases change.slot found with ⟨before, there, moved⟩ | born
  · exact moved.settled (settled key before there) (ground.sound key before there)
      fun editor => not_or.mp (lasting key before there editor)
  · cases born with
    | terminal | admitted => exact settled_of_not (.inr (.inl rfl))

/-! ## A tick -/

/-- The runs and editors that nothing is owed are all among these. -/
def Actor.Among (actor : Actor) (keys : List String) : Prop :=
  ∀ (key : String) (slot : Slot), actor.slots[key]? = some slot → slot.retirable = true →
    key ∈ keys

/-- At most `maxRetired` runs and editors are retirable. -/
def Actor.Few (actor : Actor) : Prop := ∃ keys : List String, keys.length ≤ maxRetired ∧
  actor.Among keys

/-- Only what is retirable now was so before, or the session is new. -/
theorem Actor.Few.kept (few : actor.Few)
    (kept : ∀ (key : String) (slot : Slot), after.slots[key]? = some slot → slot.retirable = true →
      ∃ before, actor.slots[key]? = some before ∧ before.retirable = true) : after.Few := by
  obtain ⟨keys, short, among⟩ := few
  refine ⟨keys, short, fun key slot found retirable => ?_⟩
  obtain ⟨before, there, was⟩ := kept key slot found retirable
  exact among key before there was

theorem Actor.Settled.reached (settled : origin.Settled) (lasting : origin.Lasting scope)
    (unasked : scope.asked → ∀ session, ¬ (scope.reaps session ∨ scope.sweeps session))
    (ground : Ground isUuid scope.begun origin) (reached : Reached isUuid scope origin actor) :
    actor.Settled := by
  induction reached with
  | refl => exact settled
  | tail before change inductionHypothesis =>
    exact change.settled (ground.reached before) inductionHypothesis
      (Spares.reached lasting nofun unasked ground before)

variable {world later : World} {event : HostEvent}

/-- No editor's leader can be reaped, and no editor is prepared by a worker that has died. -/
def Finalizes (world : World) (event : HostEvent) : Prop :=
  world.actor.Spares .editor fun session =>
    event.Reaps session ∨ event.Sweeps world.actor session

/-- A request reaps no leader and finds no worker dead. -/
theorem HostEvent.asked_spares (asked : event.Asked) (session : String) :
    ¬ (event.Reaps session ∨ event.Sweeps world.actor session) := by
  cases event with
  | requested => exact fun either => either.elim id id
  | _ => exact asked.elim

theorem World.Step.settled (grounded : world.Grounded isUuid) (settled : world.actor.Settled)
    (finalizes : Finalizes world event) (step : World.Step isUuid formats world event later) :
    later.actor.Settled := by
  cases inside : event.inside with
  | false =>
    intro key slot found
    exact settled key slot ((step.outside inside).slots ▸ found)
  | true =>
    have reached :=
      (@World.Step.reached _ _ _ _ _ True grounded (.inl trivial) inside step).1
    have lasting : world.actor.Lasting (event.may world True) := finalizes
    exact settled.reached lasting HostEvent.asked_spares grounded.ground reached

theorem World.Initial.settled (initial : World.Initial isUuid formats world) :
    world.actor.Settled := by
  obtain ⟨hostInstance, records, new⟩ := initial.new
  intro key slot found _ _ _
  obtain ⟨record, member, info, purpose, made, of, rfl, rfl⟩ := new.slots.from_ key slot found
  rfl

theorem settled : ((hostSystem isUuid formats).restrict Finalizes).Invariant
    fun world => world.Grounded isUuid ∧ world.actor.Settled where
  initial _ initial := ⟨⟨initial.ground, initial.workers⟩, initial.settled⟩
  preserved _ _ _ holds step :=
    ⟨World.Step.grounded holds.1 step.1, World.Step.settled holds.1 holds.2 step.2 step.1⟩

/-- How many ended runs and editors are still there. -/
def Actor.retained (actor : Actor) : Nat :=
  (actor.slots.toList.filter fun entry => entry.2.retained).length

end Idk.Host
