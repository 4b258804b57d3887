import Mathlib.Data.List.Basic

/-!
# Cutting a text at a separator

The text before and behind the first or the last element that separates, or the first
occurrence of a pattern.  Each is determined by the cut and by what the part before or
behind it is free of.
-/

namespace Idk.Logic

variable {α : Type}

/-- What stands before and behind the first separator. -/
def cutFirst (separates : α → Bool) : List α → Option (List α × List α)
  | [] => none
  | head :: rest =>
    if separates head then some ([], rest)
    else (cutFirst separates rest).map fun parts => (head :: parts.1, parts.2)

/-- What stands before and behind the last separator. -/
def cutLast (separates : α → Bool) : List α → Option (List α × List α)
  | [] => none
  | head :: rest =>
    match cutLast separates rest with
    | some parts => some (head :: parts.1, parts.2)
    | none => if separates head then some ([], rest) else none

/-- What stands before and behind the first occurrence of a pattern. -/
def cutAt [BEq α] (pattern : List α) : List α → Option (List α × List α)
  | [] => none
  | head :: rest =>
    if pattern.isPrefixOf (head :: rest) then some ([], (head :: rest).drop pattern.length)
    else (cutAt pattern rest).map fun parts => (head :: parts.1, parts.2)

section Separators

variable {separates : α → Bool} {text before behind : List α} {separator : α}

theorem cutFirst_append (free : ∀ element ∈ before, separates element = false)
    (cut : separates separator = true) :
    cutFirst separates (before ++ separator :: behind) = some (before, behind) := by
  induction before with
  | nil => simp [cutFirst, cut]
  | cons head rest inductionHypothesis =>
    have here := free head List.mem_cons_self
    have there := inductionHypothesis fun element member =>
      free element (List.mem_cons_of_mem _ member)
    simp [cutFirst, here, there]

theorem cutFirst_none (free : ∀ element ∈ text, separates element = false) :
    cutFirst separates text = none := by
  induction text with
  | nil => rfl
  | cons head rest inductionHypothesis =>
    have here := free head List.mem_cons_self
    have there := inductionHypothesis fun element member =>
      free element (List.mem_cons_of_mem _ member)
    simp [cutFirst, here, there]

/-- A cut says what the text was. -/
theorem cutFirst_some (cut : cutFirst separates text = some (before, behind)) :
    (∀ element ∈ before, separates element = false) ∧
      ∃ separator, separates separator = true ∧ text = before ++ separator :: behind := by
  induction text generalizing before with
  | nil => cases cut
  | cons head rest inductionHypothesis =>
    unfold cutFirst at cut
    split at cut
    · rename_i here
      cases cut
      exact ⟨by simp, head, here, rfl⟩
    · rename_i here
      obtain ⟨⟨first, last⟩, there, same⟩ := Option.map_eq_some_iff.mp cut
      cases same
      obtain ⟨free, separator, separating, rfl⟩ := inductionHypothesis there
      refine ⟨?_, separator, separating, rfl⟩
      simpa [here] using free

theorem free_of_cutFirst_none (none_ : cutFirst separates text = none) :
    ∀ element ∈ text, separates element = false := by
  induction text with
  | nil => simp
  | cons head rest inductionHypothesis =>
    unfold cutFirst at none_
    split at none_
    · cases none_
    · rename_i here
      have there := inductionHypothesis (Option.map_eq_none_iff.mp none_)
      simpa [here] using there

theorem cutLast_none (free : ∀ element ∈ text, separates element = false) :
    cutLast separates text = none := by
  induction text with
  | nil => rfl
  | cons head rest inductionHypothesis =>
    have here := free head List.mem_cons_self
    have there := inductionHypothesis fun element member =>
      free element (List.mem_cons_of_mem _ member)
    simp [cutLast, here, there]

theorem cutLast_append (free : ∀ element ∈ behind, separates element = false)
    (cut : separates separator = true) :
    cutLast separates (before ++ separator :: behind) = some (before, behind) := by
  induction before with
  | nil => simp [cutLast, cutLast_none free, cut]
  | cons head rest inductionHypothesis => simp [cutLast, inductionHypothesis]

theorem free_of_cutLast_none (none_ : cutLast separates text = none) :
    ∀ element ∈ text, separates element = false := by
  induction text with
  | nil => simp
  | cons head rest inductionHypothesis =>
    unfold cutLast at none_
    cases there : cutLast separates rest with
    | some parts => simp [there] at none_
    | none =>
      have here : separates head = false := by simpa [there] using none_
      simpa [here] using inductionHypothesis there

theorem cutLast_some (cut : cutLast separates text = some (before, behind)) :
    (∀ element ∈ behind, separates element = false) ∧
      ∃ separator, separates separator = true ∧ text = before ++ separator :: behind := by
  induction text generalizing before with
  | nil => cases cut
  | cons head rest inductionHypothesis =>
    unfold cutLast at cut
    cases there : cutLast separates rest with
    | some parts =>
      simp only [there, Option.some.injEq, Prod.mk.injEq] at cut
      obtain ⟨rfl, rfl⟩ := cut
      obtain ⟨free, separator, separating, split⟩ := inductionHypothesis there
      exact ⟨free, separator, separating, by rw [split]; rfl⟩
    | none =>
      simp only [there] at cut
      split at cut
      · rename_i here
        cases cut
        exact ⟨free_of_cutLast_none there, head, here, rfl⟩
      · cases cut

end Separators

section Patterns

variable [BEq α] [LawfulBEq α] {pattern text before behind : List α} {first : α}

/-- A pattern is found where it stands if its first element does not stand before. -/
theorem cutAt_append (free : first ∉ before) :
    cutAt (first :: pattern) (before ++ first :: pattern ++ behind) = some (before, behind) := by
  induction before with
  | nil => simp [cutAt]
  | cons head rest inductionHypothesis =>
    rw [List.mem_cons, not_or] at free
    have other : (first == head) = false := by simpa using free.1
    have there := inductionHypothesis free.2
    simp only [List.append_assoc, List.cons_append] at there ⊢
    simp [cutAt, List.isPrefixOf, other, there]

theorem cutAt_some (cut : cutAt pattern text = some (before, behind)) :
    text = before ++ pattern ++ behind := by
  induction text generalizing before with
  | nil => cases cut
  | cons head rest inductionHypothesis =>
    unfold cutAt at cut
    split at cut
    · rename_i here
      cases cut
      obtain ⟨tail, split⟩ := List.isPrefixOf_iff_prefix.mp here
      simp [← split]
    · obtain ⟨⟨one, two⟩, there, same⟩ := Option.map_eq_some_iff.mp cut
      cases same
      have split := inductionHypothesis there
      simp [split]

end Patterns

end Idk.Logic
