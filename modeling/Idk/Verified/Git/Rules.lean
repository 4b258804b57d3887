import Idk.Git.Tick

/-!
# Rules for the procedures of the actor

`Keeps` is the triple of an invariant; the procedures that only look something up keep
every invariant, and writing keeps those that the ledger does not matter to.
-/

namespace Idk.Git

open Idk.Logic
open Idk.Logic.Procedure (Ensures)

/-! ## What `oldest` picks -/

section Maps

variable {κ α : Type} {cmp : κ → κ → Ordering}

/-- A fold whose every round keeps the best entry or takes one that fits ends in such an entry. -/
theorem mem_of_foldl {older : Option α → α → Option α} {fits : α → Bool}
    (picks : ∀ best entry chosen, older best entry = some chosen →
      best = some chosen ∨ chosen = entry ∧ fits entry = true) {rest : List α} {start : Option α}
    {chosen : α} (folded : rest.foldl older start = some chosen) :
    start = some chosen ∨ chosen ∈ rest ∧ fits chosen = true := by
  induction rest generalizing start with
  | nil => exact .inl folded
  | cons head tail inductionHypothesis =>
    cases inductionHypothesis folded with
    | inl here =>
      refine (picks start head chosen here).imp_right fun ⟨same, fitting⟩ => ?_
      exact ⟨same ▸ List.mem_cons_self, same ▸ fitting⟩
    | inr later => exact .inr ⟨List.mem_cons_of_mem _ later.1, later.2⟩

/-- What `min_by_key` picks is one of the entries it may pick. -/
theorem oldest_member {eligible : κ → α → Bool} {age : α → Nat} {entries : List (κ × α)} {key : κ}
    (picked : oldest eligible age entries = some key) :
    ∃ value, (key, value) ∈ entries ∧ eligible key value = true := by
  simp only [oldest, Option.map_eq_some_iff] at picked
  obtain ⟨entry, best, rfl⟩ := picked
  have found := @mem_of_foldl _ _ (fun entry => eligible entry.1 entry.2) ?_ _ _ _ best
  · simp only [reduceCtorEq, false_or] at found
    exact ⟨entry.2, found⟩
  · intro start head chosen round
    split at round
    · cases start with
      | none => exact .inr ⟨(Option.some.inj round).symm, ‹_›⟩
      | some other =>
        simp only at round
        split at round
        · exact .inr ⟨(Option.some.inj round).symm, ‹_›⟩
        · exact .inl round
    · exact .inl round

theorem oldest_found [Std.TransCmp cmp] [Std.LawfulEqCmp cmp] {eligible : κ → α → Bool}
    {age : α → Nat} {entries : Std.TreeMap κ α cmp} {key : κ}
    (picked : oldest eligible age entries.toList = some key) :
    ∃ value, entries[key]? = some value ∧ eligible key value = true := by
  obtain ⟨value, member, fits⟩ := oldest_member picked
  exact ⟨value, by simpa using member, fits⟩

end Maps

variable {answers : Nat → Answers}

/-- `op` keeps the invariant, however it ends. -/
abbrev Keeps (answers : Nat → Answers) {α : Type} (op : Op α) (inv : Bridge → Prop) : Prop :=
  Ensures answers inv op (fun _ => inv) inv

/-- A write ends with the ledger on the disk, or fails and may leave it there too. -/
theorem persist_ends (bridge : Bridge) : Ensures answers (· = bridge) persist
    (fun _ last => last = bridge.stored) (fun last => last = bridge ∨ last = bridge.stored) := by
  refine .thenAsk fun asked => ?_
  split
  · exact .updated rfl
  · dsimp only
    split
    · exact .thenUpdate (.failing (.inr rfl))
    · exact .failing (.inl rfl)

/-- A write keeps what does not depend on the disk. -/
theorem persist_keeps {inv : Bridge → Prop} (stored : ∀ bridge, inv bridge → inv bridge.stored) :
    Keeps answers persist inv := by
  refine .known fun bridge holds => (persist_ends bridge).consequence (fun _ same => same) ?_ ?_
  · exact fun _ last same => same ▸ stored bridge holds
  · rintro last (same | same)
    · exact same ▸ holds
    · exact same ▸ stored bridge holds

theorem operationOf_ends (id : String) (bridge : Bridge) :
    Ensures answers (· = bridge) (operationOf id)
      (fun operation last => last = bridge ∧ bridge.operations[id]? = some operation)
      (fun last => last = bridge ∧ bridge.operations[id]? = none) := by
  refine .thenRead ?_
  cases found : bridge.operations[id]? with
  | none => exact .failing ⟨rfl, rfl⟩
  | some operation => exact .done ⟨rfl, rfl⟩

theorem operationOf_keeps (id : String) {inv : Bridge → Prop} :
    Ensures answers inv (operationOf id)
      (fun operation bridge => inv bridge ∧ bridge.operations[id]? = some operation) inv := by
  refine .known fun bridge holds => (operationOf_ends id bridge).consequence (fun _ same => same) ?_ ?_
  · exact fun operation last ⟨same, found⟩ => same ▸ ⟨holds, found⟩
  · exact fun last ⟨same, _⟩ => same ▸ holds

/-- The record's slot is there, in the generation of the record. -/
theorem contextOf_keeps (id client : String) {inv : Bridge → Prop} :
    Ensures answers inv (contextOf id client)
      (fun record bridge => inv bridge ∧ ∃ repo, bridge.repos[record.repository]? = some repo ∧
        repo.generation = record.generation) inv := by
  refine .known fun bridge holds => .thenRead (.thenCheck holds fun record _ =>
    .thenCheck holds fun _ _ => .thenCheck holds fun repo slot => .thenCheck holds fun _ same =>
    .thenAsk fun asked => .thenCheck holds fun _ _ => .thenCheck holds fun _ _ => .done ?_)
  exact ⟨holds, repo, context_eq_ok.mp slot, by simpa using same⟩

end Idk.Git
