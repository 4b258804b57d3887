import Idk.Run.ResultStore
import Idk.Logic.Transition
import Mathlib.Tactic.SplitIfs

/-!
# The store of result bodies over any sequence of operations

Bodies are put and removed while the file system fails at any point.  What is there is never
changed by a put, and puts never take the store over its budget.

**Main results:**

- `Bodies.put_ends`, `Bodies.remove_ends`: everything that one operation can do.
- `run_budget`: the bytes after any run.
- `run_keeps`: what no step of a run removes is still there as it was.
-/

namespace Idk

open Idk.Logic

/-- What a failed writing leaves is the beginning of what was written. -/
def Written.Of (bytes : List UInt8) : Written → Prop
  | .complete => True
  | .failed _ left => ∀ part ∈ left, part <+: bytes

namespace Bodies

variable {formats : StoreFormats} {answers : StoreAnswers} {runId : String}
  {bytes : List UInt8} {events : Bool} {bodies : Bodies}

/-- The reference that these bytes get. -/
def reference (formats : StoreFormats) (runId : String) (bytes : List UInt8) : BodyReference :=
  ⟨runId, formats.sha256 bytes, bytes.length⟩

/-- A reference to these bytes may be made. -/
structure Allowed (formats : StoreFormats) (runId : String) (bytes : List UInt8) (events : Bool) :
    Prop where
  uuid : formats.isUuid runId = true
  path : formats.checkPath (reference formats runId bytes) events = .ok ()
  small : bytes.length ≤ if events then maxEventBytes else maxResultBytes

/-- How `put` ends, and the store it leaves. -/
inductive Put (formats : StoreFormats) (answers : StoreAnswers) (runId : String)
    (bytes : List UInt8) (events : Bool) (bodies : Bodies) :
    Result (Except StructuredResult BodyReference) × Bodies → Prop where
  | refused (error : String) : Put formats answers runId bytes events bodies (.error error, bodies)
  | found (allowed : Allowed formats runId bytes events)
      (there : bodies.lookup ((reference formats runId bytes).named events) = some bytes) :
      Put formats answers runId bytes events bodies
        (.ok (.ok (reference formats runId bytes)), bodies)
  | full (most : totalResultBytes < bodies.bytesUsed + bytes.length) :
      Put formats answers runId bytes events bodies
        (.ok (.error (.limited totalResultBytes bytes.length)), bodies)
  | written (allowed : Allowed formats runId bytes events)
      (absent : bodies.lookup ((reference formats runId bytes).named events) = none)
      (room : bodies.bytesUsed + bytes.length ≤ totalResultBytes) :
      Put formats answers runId bytes events bodies
        (.ok (.ok (reference formats runId bytes)),
          ((reference formats runId bytes).named events, bytes) :: bodies)
  | failed {error : String} {left : Option (List UInt8)} (told : answers.write = .failed error left)
      (absent : bodies.lookup ((reference formats runId bytes).named events) = none)
      (room : bodies.bytesUsed + bytes.length ≤ totalResultBytes) :
      Put formats answers runId bytes events bodies
        (.error error, left.elim bodies fun part =>
          ((reference formats runId bytes).named events, part) :: bodies)

theorem existing_ok {name : BodyName} {content : List UInt8} {done : Unit}
    (same : existing formats answers name bytes content = .ok done) : content = bytes := by
  simp only [existing, StoreAnswers.readPrivate, bind_eq_ok, ensure_eq_ok] at same
  obtain ⟨_, ⟨_, _, _, _, _, _, read⟩, _, equal, _⟩ := same
  cases read
  simpa using equal

theorem put_ends : Put formats answers runId bytes events bodies
    (bodies.put formats answers runId bytes events) := by
  unfold put
  dsimp only
  split
  · exact .refused _
  · rename_i checked
    have allowed : Allowed formats runId bytes events := by
      obtain ⟨_, valid, rest⟩ := bind_eq_ok.mp checked
      obtain ⟨_, path, _⟩ := bind_eq_ok.mp rest
      have bound := path
      simp only [StoreFormats.checkPath, bind_eq_ok, ensure_eq_ok, decide_eq_true_eq] at bound
      obtain ⟨_, _, _, _, small⟩ := bound
      exact ⟨ensure_eq_ok.mp valid, path, small⟩
    split
    · rename_i content seen
      obtain ⟨_, _, there⟩ := Option.bind_eq_some_iff.mp seen
      cases compared : existing formats answers
          (BodyReference.named ⟨runId, formats.sha256 bytes, bytes.length⟩ events) bytes content with
      | error error => exact .refused _
      | ok done =>
        rw [existing_ok compared] at there
        exact .found allowed there
    · split
      · exact .refused _
      · split_ifs with full taken
        · refine .full ?_
          unfold saturatingAdd at full
          omega
        · exact .refused _
        · have absent : bodies.lookup ((reference formats runId bytes).named events) = none := by
            exact Option.not_isSome_iff_eq_none.mp taken
          have room : bodies.bytesUsed + bytes.length ≤ totalResultBytes := by
            have small : totalResultBytes < 2 ^ 64 - 1 := by decide
            unfold saturatingAdd at full
            omega
          split
          · exact .written allowed absent room
          · rename_i told
            exact .failed told absent room

/-- Nothing fails, and every file is as private as it was made. -/
structure Quiet (answers : StoreAnswers) : Prop where
  lock : answers.lock = .ok ()
  stat : answers.stat = .ok ()
  read : answers.read = .ok ()
  isPrivate : answers.isPrivate = true
  sync : answers.sync = .ok ()

/-- Bytes that are there already are found again. -/
theorem put_again (quiet : Quiet answers) (allowed : Allowed formats runId bytes events)
    (there : bodies.lookup ((reference formats runId bytes).named events) = some bytes) :
    bodies.put formats answers runId bytes events =
      (.ok (.ok (reference formats runId bytes)), bodies) := by
  have checked : (do
      formats.validId runId
      formats.checkPath (reference formats runId bytes) events
      answers.lock : Result Unit) = .ok () := by
    rw [StoreFormats.validId, allowed.uuid, allowed.path, quiet.lock]
    rfl
  have compared : existing formats answers ((reference formats runId bytes).named events) bytes
      bytes = .ok () := by
    simp [existing, StoreAnswers.readPrivate, quiet.read, quiet.isPrivate, quiet.sync, bind,
      Except.bind, pure, Except.pure]
  simp only [reference] at checked there compared
  simp only [put, checked, quiet.stat, Except.toOption, Option.bind_some, there, compared]
  rfl

/-- A name that is taken is not written, whatever fails. -/
theorem put_taken {content : List UInt8}
    (there : bodies.lookup ((reference formats runId bytes).named events) = some content) :
    (bodies.put formats answers runId bytes events).2 = bodies := by
  have ends : Put formats answers runId bytes events bodies _ := put_ends
  generalize bodies.put formats answers runId bytes events = outcome at ends
  cases ends with
  | refused | found | full => rfl
  | written _ absent | failed _ absent =>
    rw [there] at absent
    cases absent

/-! ## One step -/

@[simp] theorem bytesUsed_cons (name : BodyName) (content : List UInt8) :
    bytesUsed ((name, content) :: bodies) = content.length + bodies.bytesUsed := by
  simp [bytesUsed]

theorem bytesUsed_without (name : BodyName) : (bodies.without name).bytesUsed ≤ bodies.bytesUsed := by
  induction bodies with
  | nil => exact Nat.le_refl 0
  | cons pair rest inductionHypothesis =>
    have step : bytesUsed (pair :: rest) = pair.2.length + bytesUsed rest := bytesUsed_cons _ _
    simp only [without, List.filter_cons]
    split
    · have kept : bytesUsed (pair :: rest.filter (·.1 != name)) =
          pair.2.length + bytesUsed (rest.filter (·.1 != name)) := bytesUsed_cons _ _
      simp only [without] at inductionHypothesis
      omega
    · simp only [without] at inductionHypothesis
      omega

/-- A put stays within the budget, or adds nothing. -/
theorem put_budget (honest : answers.write.Of bytes) :
    (bodies.put formats answers runId bytes events).2.bytesUsed ≤ totalResultBytes ∨
      (bodies.put formats answers runId bytes events).2 = bodies := by
  have ends : Put formats answers runId bytes events bodies _ := put_ends
  generalize bodies.put formats answers runId bytes events = outcome at ends
  cases ends with
  | refused | found | full => exact .inr rfl
  | written _ _ room =>
    left
    simp only [bytesUsed_cons]
    omega
  | @failed error left told _ room =>
    cases left with
    | none => exact .inr rfl
    | some part =>
      left
      rw [told] at honest
      have shorter := (honest part rfl).length_le
      simp only [Option.elim_some, bytesUsed_cons]
      omega

/-- What is stored is not changed by a put. -/
theorem put_keeps {name : BodyName} {content : List UInt8}
    (there : bodies.lookup name = some content) :
    (bodies.put formats answers runId bytes events).2.lookup name = some content := by
  have ends : Put formats answers runId bytes events bodies _ := put_ends
  generalize bodies.put formats answers runId bytes events = outcome at ends
  -- what is added has a name that was free
  have added : ∀ part, bodies.lookup ((reference formats runId bytes).named events) = none →
      List.lookup name (((reference formats runId bytes).named events, part) :: bodies) =
        some content := by
    intro part absent
    have other : name ≠ (reference formats runId bytes).named events := by
      rintro rfl
      rw [there] at absent
      cases absent
    rw [List.lookup_cons, beq_false_of_ne other]
    exact there
  cases ends with
  | refused | found | full => exact there
  | written _ absent => exact added bytes absent
  | @failed _ left _ absent =>
    cases left with
    | none => exact there
    | some part => exact added part absent

/-- A file goes only when it is what the reference says. -/
theorem remove_ends {body : BodyReference} :
    (bodies.remove formats answers body events).2 = bodies ∨
      (bodies.remove formats answers body events).2 = bodies.without (body.named events) := by
  unfold remove
  dsimp only
  split
  · exact .inl rfl
  · split
    · exact .inl rfl
    · split
      · exact .inl rfl
      · exact .inr rfl

theorem lookup_without {name removed : BodyName} (other : name ≠ removed) :
    (bodies.without removed).lookup name = bodies.lookup name := by
  induction bodies with
  | nil => rfl
  | cons pair rest inductionHypothesis =>
    obtain ⟨key, content⟩ := pair
    simp only [without] at inductionHypothesis
    by_cases gone : key = removed
    · have apart : (name == key) = false := beq_false_of_ne (gone ▸ other)
      simp [without, gone, List.lookup_cons, inductionHypothesis, gone ▸ apart]
    · simp [without, gone, List.lookup_cons, inductionHypothesis]

end Bodies

/-! ## Sequences -/

inductive StoreEvent where
  | put (answers : StoreAnswers) (runId : String) (bytes : List UInt8) (events : Bool)
  | remove (answers : StoreAnswers) (body : BodyReference) (events : Bool)

namespace StoreEvent

def after (formats : StoreFormats) (bodies : Bodies) : StoreEvent → Bodies
  | .put answers runId bytes events => (bodies.put formats answers runId bytes events).2
  | .remove answers body events => (bodies.remove formats answers body events).2

def Possible : StoreEvent → Prop
  | .put answers _ bytes _ => answers.write.Of bytes
  | .remove _ _ _ => True

/-- The name whose file the step may remove. -/
def Removes (name : BodyName) : StoreEvent → Prop
  | .put _ _ _ _ => False
  | .remove _ body events => body.named events = name

end StoreEvent

/-- The store of one state directory: whatever is in it, and any operations on it. -/
def storeSystem (formats : StoreFormats) : System Bodies StoreEvent where
  init _ := True
  step bodies event after := event.Possible ∧ after = event.after formats bodies

variable {formats : StoreFormats} {first last : Bodies} {trace : List StoreEvent}

theorem run_budget (run : (storeSystem formats).Run first trace last) :
    last.bytesUsed ≤ max first.bytesUsed totalResultBytes := by
  induction run with
  | refl => omega
  | @tail middle last trace event earlier taken inductionHypothesis =>
    obtain ⟨possible, rfl⟩ := taken
    cases event with
    | put answers runId bytes events =>
      obtain within | same := @Bodies.put_budget formats answers runId bytes events middle possible
      · simp only [StoreEvent.after]
        omega
      · simpa only [StoreEvent.after, same] using inductionHypothesis
    | remove answers body events =>
      have fewer := middle.bytesUsed_without (body.named events)
      obtain same | gone := @Bodies.remove_ends formats answers events middle body
      · simpa only [StoreEvent.after, same] using inductionHypothesis
      · simp only [StoreEvent.after, gone]
        omega

theorem run_keeps (run : (storeSystem formats).Run first trace last) {name : BodyName}
    {content : List UInt8} (there : first.lookup name = some content)
    (kept : ∀ event ∈ trace, ¬ event.Removes name) : last.lookup name = some content := by
  induction run with
  | refl => exact there
  | @tail middle last trace event earlier taken inductionHypothesis =>
    obtain ⟨-, rfl⟩ := taken
    have before := inductionHypothesis fun event mem => kept event (by simp [mem])
    have stays := kept event (by simp)
    cases event with
    | put answers runId bytes events => exact Bodies.put_keeps before
    | remove answers body events =>
      have other : name ≠ body.named events := fun same => stays same.symm
      obtain same | gone := @Bodies.remove_ends formats answers events middle body
      · simpa only [StoreEvent.after, same] using before
      · simpa only [StoreEvent.after, gone, Bodies.lookup_without other] using before

end Idk
