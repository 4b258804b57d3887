import Mathlib.Data.List.Nodup
import Idk.Logic.Interleaving

/-!
# Logs of replacements

A value that several writers replace one after another.  The log keeps what each
replacement found and what it left, newest first; `Chained` says that every one of
them found exactly what the one before it had left.

**Main rules:**

- `Chained.version_unique`: when every replacement raises a rank by one, the rank
  determines the version, so that a writer who compares ranks compares values.
- `Logs.run`: in a pool whose threads log what they replace, every entry is what its
  writer's call asked for and every successful call has an entry.
-/

namespace Idk.Logic

/-- One replacement and who made it. -/
structure Replacement (κ ν : Type) where
  writer : κ
  before : ν
  after : ν
deriving DecidableEq, Repr

variable {κ ν : Type} {start : ν → Prop}

/-- What is stored after the log; before it, a value with `start`. -/
def Current (start : ν → Prop) : List (Replacement κ ν) → ν → Prop
  | [], value => start value
  | last :: _, value => value = last.after

/-- Every replacement found what the one before it had left. -/
def Chained (start : ν → Prop) : List (Replacement κ ν) → Prop
  | [] => True
  | last :: older => Current start older last.before ∧ Chained start older

/-- The values that were stored at some time. -/
def Version (start : ν → Prop) (log : List (Replacement κ ν)) (value : ν) : Prop :=
  start value ∨ ∃ entry ∈ log, value = entry.after

theorem Current.version {log : List (Replacement κ ν)} {value : ν}
    (current : Current start log value) : Version start log value := by
  cases log with
  | nil => exact .inl current
  | cons last older => exact .inr ⟨last, List.mem_cons_self, current⟩

theorem Version.cons {log : List (Replacement κ ν)} {entry : Replacement κ ν} {value : ν}
    (version : Version start log value) : Version start (entry :: log) value := by
  cases version with
  | inl first => exact .inl first
  | inr stored =>
    obtain ⟨older, member, same⟩ := stored
    exact .inr ⟨older, List.mem_cons_of_mem _ member, same⟩

theorem Current.unique {log : List (Replacement κ ν)} {left right : ν}
    (functional : ∀ left right, start left → start right → left = right)
    (first : Current start log left) (second : Current start log right) : left = right := by
  cases log with
  | nil => exact functional _ _ first second
  | cons last older => exact Eq.trans first (Eq.symm second)

theorem Version.cases_cons {log : List (Replacement κ ν)} {last : Replacement κ ν} {value : ν}
    (version : Version start (last :: log) value) : Version start log value ∨ value = last.after := by
  cases version with
  | inl first => exact .inl (.inl first)
  | inr stored =>
    obtain ⟨entry, member, same⟩ := stored
    cases List.mem_cons.mp member with
    | inl newest => exact .inr (newest ▸ same)
    | inr older => exact .inl (.inr ⟨entry, older, same⟩)

/-! ## Logs that other writers extend -/

/-- `after` is `before`, or one replacement of another writer longer. -/
def Extended (id : κ) (before after : List (Replacement κ ν)) : Prop :=
  after = before ∨ ∃ entry : Replacement κ ν, entry.writer ≠ id ∧ after = entry :: before

/-- `id` has replaced nothing yet. -/
def Absent (id : κ) (log : List (Replacement κ ν)) : Prop := id ∉ log.map (·.writer)

/-- `id` has replaced a value. -/
def Present (id : κ) (log : List (Replacement κ ν)) : Prop := ∃ entry ∈ log, entry.writer = id

theorem Present.cons {id : κ} {log : List (Replacement κ ν)} (present : Present id log)
    (entry : Replacement κ ν) : Present id (entry :: log) := by
  obtain ⟨own, member, same⟩ := present
  exact ⟨own, List.mem_cons_of_mem _ member, same⟩

namespace Extended

variable {id : κ} {before after : List (Replacement κ ν)}

theorem absent (extended : Extended id before after) (absent : Absent id before) :
    Absent id after := by
  cases extended with
  | inl same => exact same ▸ absent
  | inr longer =>
    obtain ⟨entry, different, same⟩ := longer
    simp only [Absent, same, List.map_cons, List.mem_cons, not_or]
    exact ⟨different.symm, absent⟩

theorem present (extended : Extended id before after) (present : Present id before) :
    Present id after := by
  cases extended with
  | inl same => exact same ▸ present
  | inr longer =>
    obtain ⟨entry, _, same⟩ := longer
    exact same ▸ present.cons entry

theorem version (extended : Extended id before after) {value : ν}
    (version : Version start before value) : Version start after value := by
  cases extended with
  | inl same => exact same ▸ version
  | inr longer =>
    obtain ⟨entry, _, same⟩ := longer
    exact same ▸ version.cons

end Extended

namespace Chained

/-- What a replacement in the middle of the log found was stored then. -/
theorem found_version {log : List (Replacement κ ν)} (chained : Chained start log)
    {entry : Replacement κ ν} (member : entry ∈ log) : Version start log entry.before := by
  induction log with
  | nil => simp at member
  | cons last older inductionHypothesis =>
    cases List.mem_cons.mp member with
    | inl same =>
      subst same
      exact chained.1.version.cons
    | inr earlier => exact (inductionHypothesis chained.2 earlier).cons

section Rank

variable {rank : ν → Nat} {log : List (Replacement κ ν)}

/-- No version has a higher rank than the current one. -/
theorem version_rank (functional : ∀ left right, start left → start right → left = right)
    (chained : Chained start log)
    (raises : ∀ entry ∈ log, rank entry.after = rank entry.before + 1)
    {value current : ν} (version : Version start log value) (stored : Current start log current) :
    rank value ≤ rank current := by
  induction log generalizing value current with
  | nil =>
    cases version with
    | inl first => exact Nat.le_of_eq (congrArg rank (functional _ _ first stored))
    | inr impossible => simp at impossible
  | cons last older inductionHypothesis =>
    obtain rfl : current = last.after := stored
    have raised := raises last List.mem_cons_self
    cases version.cases_cons with
    | inl old =>
      have bound := inductionHypothesis chained.2
        (fun entry member => raises entry (List.mem_cons_of_mem _ member)) old chained.1
      omega
    | inr newest => exact Nat.le_of_eq (congrArg rank newest)

/-- The rank determines the version. -/
theorem version_unique (functional : ∀ left right, start left → start right → left = right)
    (chained : Chained start log)
    (raises : ∀ entry ∈ log, rank entry.after = rank entry.before + 1)
    {left right : ν} (first : Version start log left) (second : Version start log right)
    (equal : rank left = rank right) : left = right := by
  induction log with
  | nil =>
    cases first with
    | inl one =>
      cases second with
      | inl other => exact functional _ _ one other
      | inr impossible => simp at impossible
    | inr impossible => simp at impossible
  | cons last older inductionHypothesis =>
    have raised := raises last List.mem_cons_self
    have raisesOlder : ∀ entry ∈ older, rank entry.after = rank entry.before + 1 :=
      fun entry member => raises entry (List.mem_cons_of_mem _ member)
    -- An older version ranks below what the last replacement left.
    have below : ∀ value, Version start older value → rank value < rank last.after := by
      intro value old
      have bound := version_rank functional chained.2 raisesOlder old chained.1
      omega
    cases first.cases_cons with
    | inl old =>
      cases second.cases_cons with
      | inl older' => exact inductionHypothesis chained.2 raisesOlder old older'
      | inr newest =>
        have bound := below left old
        rw [newest] at equal
        omega
    | inr newest =>
      cases second.cases_cons with
      | inl old =>
        have bound := below right old
        rw [newest] at equal
        omega
      | inr same => rw [newest, same]

end Rank

end Chained

/-! ## Pools that log their replacements -/

section Pools

variable {γ ρ σ ε α : Type} [DecidableEq κ] {code : Interleaving κ γ ρ σ ε α}

/-- The threads of the outline log their replacements, each as `asks` of its call says. -/
structure Logs (outline : code.Outline) (log : σ → List (Replacement κ ν))
    (asks : γ → ν → ν → Prop) : Prop where
  change : ∀ id call before after, outline.inv before → outline.guarantee id call before after →
    log after = log before ∨ ∃ entry : Replacement κ ν, entry.writer = id ∧
      log after = entry :: log before ∧ asks call entry.before entry.after
  bury : ∀ id before, log (code.bury id before) = log before
  post : ∀ id call value state, outline.post id call (.ok value) state → Present id (log state)

/-- Every entry is what its writer's call asked for. -/
def AskedLog (log : σ → List (Replacement κ ν)) (asks : γ → ν → ν → Prop)
    (pool : Pool κ γ ρ σ ε α) : Prop :=
  ∀ entry ∈ log pool.shared, ∃ call, pool.calls entry.writer = some call ∧
    asks call entry.before entry.after

namespace Logs

variable {outline : code.Outline} {log : σ → List (Replacement κ ν)} {asks : γ → ν → ν → Prop}

/-- The log changes only by an entry of the thread that moves, for its own call. -/
theorem took (logs : Logs outline log asks) {before after : Pool κ γ ρ σ ε α}
    {event : ThreadEvent κ γ ε α} (inv : outline.inv before.shared)
    (took : outline.Took before event after) :
    log after.shared = log before.shared ∨ ∃ entry call, event = .turn entry.writer ∧
      before.calls entry.writer = some call ∧ log after.shared = entry :: log before.shared ∧
      asks call entry.before entry.after := by
  cases took with
  | start same => exact .inl (by rw [same])
  | finish known same => exact .inl (by rw [same])
  | die known buried => exact .inl (by rw [buried, logs.bury])
  | @turn id call _ known allowed =>
    cases logs.change id call _ _ inv allowed with
    | inl same => exact .inl same
    | inr added =>
      obtain ⟨entry, rfl, longer, asked⟩ := added
      exact .inr ⟨entry, call, rfl, known, longer, asked⟩

theorem calls_kept {before after : Pool κ γ ρ σ ε α}
    {event : ThreadEvent κ γ ε α} (took : outline.Took before event after) {id : κ} {call : γ}
    (known : before.calls id = some call) : after.calls id = some call := by
  cases took with
  | start same unused calls =>
    rw [calls, Function.update_of_ne (fun equal => by simp [equal, unused] at known), known]
  | turn _ _ calls => exact calls ▸ known
  | finish _ _ _ calls => exact calls ▸ known
  | die _ _ calls => exact calls ▸ known

theorem took_present (logs : Logs outline log asks) {before after : Pool κ γ ρ σ ε α}
    {event : ThreadEvent κ γ ε α} (inv : outline.inv before.shared)
    (step : outline.Took before event after) {id : κ} (present : Present id (log before.shared)) :
    Present id (log after.shared) := by
  cases logs.took inv step with
  | inl same => exact same ▸ present
  | inr added =>
    obtain ⟨entry, _, _, _, longer, _⟩ := added
    exact longer ▸ present.cons entry

theorem took_asked (logs : Logs outline log asks) {before after : Pool κ γ ρ σ ε α}
    {event : ThreadEvent κ γ ε α} (inv : outline.inv before.shared)
    (step : outline.Took before event after) (asked : AskedLog log asks before) :
    AskedLog log asks after := by
  have older : ∀ entry ∈ log before.shared, ∃ call, after.calls entry.writer = some call ∧
      asks call entry.before entry.after := by
    intro entry member
    obtain ⟨call, known, holds⟩ := asked entry member
    exact ⟨call, calls_kept step known, holds⟩
  intro entry member
  cases logs.took inv step with
  | inl same => exact older entry (same ▸ member)
  | inr added =>
    obtain ⟨newest, call, _, known, longer, holds⟩ := added
    rw [longer] at member
    cases List.mem_cons.mp member with
    | inl same => exact same ▸ ⟨call, calls_kept step known, holds⟩
    | inr old => exact older entry old

/-- What holds of the log after every run. -/
theorem run (logs : Logs outline log asks) {initial : σ → Prop}
    (starts : ∀ state, initial state → (outline.inv state ∧ ∀ id, outline.fresh id state) ∧
      log state = []) {start pool : Pool κ γ ρ σ ε α} {trace : List (ThreadEvent κ γ ε α)}
    (init : (code.system initial).init start) (run : (code.system initial).Run start trace pool) :
    outline.Holds pool ∧ AskedLog log asks pool ∧
      ∀ id value, .finish id (.ok value) ∈ trace → Present id (log pool.shared) := by
  induction run with
  | refl =>
    have empty := (starts _ init.1).2
    exact ⟨(outline.sound fun state holds => (starts state holds).1).initial init,
      fun entry member => by simp [empty] at member, fun id value ended => by simp at ended⟩
  | @tail _ _ _ label _ taken inductionHypothesis =>
    obtain ⟨holds, asked, successful⟩ := inductionHypothesis
    obtain ⟨next, step⟩ := outline.holds_step holds taken
    refine ⟨next, logs.took_asked holds.inv step asked, fun id value ended => ?_⟩
    cases List.mem_append.mp ended with
    | inl earlier => exact logs.took_present holds.inv step (successful id value earlier)
    | inr now =>
      obtain rfl : .finish id (.ok value) = label := by simpa using now
      cases step with
      | finish known same post => exact same ▸ logs.post _ _ _ _ post

end Logs

end Pools

end Idk.Logic
