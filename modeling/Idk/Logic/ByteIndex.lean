import Idk.Logic.Cuts
import Mathlib.Algebra.Ring.Int.Defs
import Mathlib.Algebra.Ring.Nat

/-!
# Text by byte index

A text is a list of characters; an index counts the bytes that their UTF-8 encoding takes.
Slicing at an index inside of a character is an error of the program and has no result.
-/

namespace Idk.Logic

/-- The number of bytes of a text. -/
def byteLength (text : List Char) : Nat := (text.map Char.utf8Size).sum

/-- What stands before and behind a byte index. -/
def splitAt : List Char → Nat → Option (List Char × List Char)
  | text, 0 => some ([], text)
  | [], _ + 1 => none
  | char :: rest, index + 1 =>
    if char.utf8Size ≤ index + 1 then
      (splitAt rest (index + 1 - char.utf8Size)).map fun parts => (char :: parts.1, parts.2)
    else none

/-- The text up to an index. -/
def upTo (text : List Char) (index : Nat) : Option (List Char) :=
  (splitAt text index).map Prod.fst

/-- The text from an index on. -/
def onward (text : List Char) (index : Nat) : Option (List Char) :=
  (splitAt text index).map Prod.snd

/-- The text between two indices. -/
def between (text : List Char) (start stop : Nat) : Option (List Char) :=
  if start ≤ stop then (onward text start).bind (upTo · (stop - start)) else none

/-- The text without what stands between two indices. -/
def drain (text : List Char) (start stop : Nat) : Option (List Char) := do
  let _ ← between text start stop
  let before ← upTo text start
  let behind ← onward text stop
  return before ++ behind

/-- The index of the first character that is sought. -/
def findFirst (sought : Char → Bool) (text : List Char) : Option Nat :=
  (cutFirst sought text).map fun parts => byteLength parts.1

/-- The index of the last character that is sought. -/
def findLast (sought : Char → Bool) (text : List Char) : Option Nat :=
  (cutLast sought text).map fun parts => byteLength parts.1

/-- The index of the last character. -/
def lastIndex (text : List Char) : Option Nat :=
  if text = [] then none else some (byteLength text.dropLast)

section Lengths

variable {text before behind span : List Char} {char : Char}

@[simp] theorem byteLength_nil : byteLength [] = 0 := rfl

@[simp] theorem byteLength_cons : byteLength (char :: text) = char.utf8Size + byteLength text := by
  simp [byteLength]

@[simp] theorem byteLength_append :
    byteLength (before ++ behind) = byteLength before + byteLength behind := by
  simp [byteLength]

theorem byteLength_eq_zero : byteLength text = 0 ↔ text = [] := by
  cases text with
  | nil => simp
  | cons char rest =>
    have positive := char.utf8Size_pos
    simp
    omega

end Lengths

section Splits

variable {text before behind span : List Char}

/-- A boundary is where a text is split. -/
theorem splitAt_append : splitAt (before ++ behind) (byteLength before) = some (before, behind) := by
  induction before with
  | nil => cases behind <;> rfl
  | cons char rest inductionHypothesis =>
    obtain ⟨size, same⟩ := Nat.exists_eq_succ_of_ne_zero (Nat.ne_of_gt char.utf8Size_pos)
    have later : size + byteLength rest + 1 - char.utf8Size = byteLength rest := by omega
    have enough : char.utf8Size ≤ size + byteLength rest + 1 := by omega
    have index : byteLength (char :: rest) = size + byteLength rest + 1 := by
      rw [byteLength_cons]
      omega
    rw [index, List.cons_append, splitAt, if_pos enough, later, inductionHypothesis]
    rfl

@[simp] theorem upTo_append : upTo (before ++ behind) (byteLength before) = some before := by
  simp [upTo, splitAt_append]

@[simp] theorem onward_append : onward (before ++ behind) (byteLength before) = some behind := by
  simp [onward, splitAt_append]

theorem between_append :
    between (before ++ (span ++ behind)) (byteLength before) (byteLength before + byteLength span) =
      some span := by
  simp [between]

theorem drain_append :
    drain (before ++ (span ++ behind)) (byteLength before) (byteLength before + byteLength span) =
      some (before ++ behind) := by
  have last : onward (before ++ (span ++ behind)) (byteLength before + byteLength span) =
      some behind := by
    have whole := @onward_append (before ++ span) behind
    simpa using whole
  simp [drain, between_append, last]

/-- Every split is at a boundary. -/
theorem splitAt_some {index : Nat} (split : splitAt text index = some (before, behind)) :
    text = before ++ behind ∧ index = byteLength before := by
  induction text generalizing index before with
  | nil =>
    cases index with
    | zero =>
      cases split
      exact ⟨rfl, rfl⟩
    | succ index => cases split
  | cons char rest inductionHypothesis =>
    cases index with
    | zero =>
      cases split
      exact ⟨rfl, rfl⟩
    | succ index =>
      unfold splitAt at split
      split at split
      · rename_i enough
        obtain ⟨⟨first, last⟩, there, same⟩ := Option.map_eq_some_iff.mp split
        cases same
        obtain ⟨parts, left⟩ := inductionHypothesis there
        have inside : index + 1 - char.utf8Size = byteLength first := left
        refine ⟨by rw [parts]; rfl, ?_⟩
        show index + 1 = byteLength (char :: first)
        rw [byteLength_cons]
        omega
      · cases split

end Splits

section Searches

variable {sought : Char → Bool} {text : List Char}

/-- Nothing is found, or the text is cut behind a part without what is sought. -/
theorem findFirst_cases (sought : Char → Bool) (text : List Char) :
    findFirst sought text = none ∧ (∀ char ∈ text, sought char = false) ∨
      ∃ before char behind, text = before ++ char :: behind ∧ sought char = true ∧
        (∀ other ∈ before, sought other = false) ∧
        findFirst sought text = some (byteLength before) := by
  cases cut : cutFirst sought text with
  | none => exact .inl ⟨by rw [findFirst, cut]; rfl, free_of_cutFirst_none cut⟩
  | some parts =>
    obtain ⟨free, char, found, same⟩ := cutFirst_some cut
    exact .inr ⟨parts.1, char, parts.2, same, found, free, by rw [findFirst, cut]; rfl⟩

/-- Nothing is found, or the text is cut before a part without what is sought. -/
theorem findLast_cases (sought : Char → Bool) (text : List Char) :
    findLast sought text = none ∧ (∀ char ∈ text, sought char = false) ∨
      ∃ before char behind, text = before ++ char :: behind ∧ sought char = true ∧
        (∀ other ∈ behind, sought other = false) ∧
        findLast sought text = some (byteLength before) := by
  cases cut : cutLast sought text with
  | none => exact .inl ⟨by rw [findLast, cut]; rfl, free_of_cutLast_none cut⟩
  | some parts =>
    obtain ⟨free, char, found, same⟩ := cutLast_some cut
    exact .inr ⟨parts.1, char, parts.2, same, found, free, by rw [findLast, cut]; rfl⟩

theorem lastIndex_append {char : Char} : lastIndex (text ++ [char]) = some (byteLength text) := by
  simp [lastIndex]

end Searches

end Idk.Logic
