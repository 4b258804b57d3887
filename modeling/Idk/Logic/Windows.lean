import Mathlib.Data.List.TakeWhile

/-!
# A window on the end of a list

Of a list that grows only its last elements stay, from the first one that is not inner to a
piece.  A window that held inner elements only is empty; what is appended to it next may begin
inside of a piece, where the window of the whole list would not.
-/

namespace Idk.Logic

variable {α : Type} {inner : α → Bool} {limit : Nat}

/-- The last `limit` elements, without the inner ones at their begin when others are gone. -/
def window (inner : α → Bool) (limit : Nat) (items : List α) : List α :=
  if limit < items.length then (items.drop (items.length - limit)).dropWhile inner else items

theorem window_short {items : List α} (short : items.length ≤ limit) :
    window inner limit items = items := by
  rw [window, if_neg (by omega)]

/-- What is out of reach does not matter. -/
theorem window_append {gone rest : List α} (long : limit < rest.length) :
    window inner limit (gone ++ rest) = window inner limit rest := by
  have place : (gone ++ rest).length - limit = gone.length + (rest.length - limit) := by
    rw [List.length_append]
    omega
  have whole : limit < (gone ++ rest).length := by
    rw [List.length_append]
    omega
  rw [window, window, if_pos long, if_pos whole, place, List.drop_append, List.drop_of_length_le
    (by omega), List.nil_append]
  congr 2
  omega

/-- A window that would begin among inner elements begins behind them. -/
theorem window_inner {gone run rest : List α} (all : ∀ item ∈ run, inner item = true)
    (least : limit ≤ run.length + rest.length) (most : rest.length ≤ limit)
    (long : limit < gone.length + (run.length + rest.length)) :
    window inner limit (gone ++ (run ++ rest)) = rest.dropWhile inner := by
  have whole : limit < (gone ++ (run ++ rest)).length := by simpa using long
  have place : (gone ++ (run ++ rest)).length - limit =
      gone.length + (run.length + rest.length - limit) := by
    simp only [List.length_append]
    omega
  have stays : (gone ++ (run ++ rest)).drop ((gone ++ (run ++ rest)).length - limit) =
      run.drop (run.length + rest.length - limit) ++ rest := by
    rw [place, ← List.drop_drop, List.drop_left, List.drop_append_of_le_length (by omega)]
  rw [window, if_pos whole, stays]
  exact List.dropWhile_append_of_pos fun item member => all item (List.mem_of_mem_drop member)

/-- The window was empty when these elements were appended, and begins inside of a piece. -/
structure Strands (inner : α → Bool) (limit : Nat) (gone run kept : List α) : Prop where
  before : gone ≠ []
  all : ∀ item ∈ run, inner item = true
  length : run.length = limit
  inside : ∃ first ∈ kept.head?, inner first = true
  short : kept.length ≤ limit

def Stranded (inner : α → Bool) (limit : Nat) (items kept : List α) : Prop :=
  ∃ gone run, items = gone ++ (run ++ kept) ∧ Strands inner limit gone run kept

/-- What the window of a list may be, by how the list was appended to. -/
def Windowed (inner : α → Bool) (limit : Nat) (items kept : List α) : Prop :=
  kept = window inner limit items ∨ Stranded inner limit items kept

theorem head_dropWhile (items : List α) :
    ∀ item ∈ (items.dropWhile inner).head?, inner item = false := by
  intro item head
  have stops := List.head?_dropWhile_not inner items
  rwa [Option.mem_def.mp head] at stops

theorem Strands.lost {gone run kept : List α} (strands : Strands inner limit gone run kept) :
    window inner limit (gone ++ run) = [] := by
  have some_ := List.length_pos_iff.mpr strands.before
  have length := strands.length
  have lost := @window_inner _ inner limit gone run [] strands.all (by simp; omega) (by simp)
    (by simp; omega)
  simpa using lost

/-- The window of the list begins behind the inner elements that the stranded one begins with. -/
theorem Strands.begins {gone run kept : List α} (strands : Strands inner limit gone run kept) :
    ∃ strays, strays ≠ [] ∧ (∀ item ∈ strays, inner item = true) ∧
      kept = strays ++ window inner limit (gone ++ (run ++ kept)) := by
  have some_ := List.length_pos_iff.mpr strands.before
  have length := strands.length
  obtain ⟨first, head, inside⟩ := strands.inside
  have filled : 0 < kept.length := by
    cases kept with
    | nil => cases head
    | cons => exact Nat.succ_pos _
  rw [window_inner strands.all (by omega) strands.short (by omega)]
  refine ⟨kept.takeWhile inner, ?_, fun item member => List.mem_takeWhile_imp member,
    (List.takeWhile_append_dropWhile).symm⟩
  cases kept with
  | nil => cases head
  | cons other kept =>
    cases head
    rw [List.takeWhile_cons_of_pos inside]
    exact List.cons_ne_nil _ _

/-- Appending to a window keeps to the window of the list, unless all of the window was inner. -/
theorem window_grows (items new : List α) :
    Windowed inner limit (items ++ new) (window inner limit (window inner limit items ++ new)) := by
  by_cases small : items.length ≤ limit
  · exact .inl (by rw [window_short small])
  have long : limit < items.length := by omega
  -- What is gone, the inner elements at the cut, and the window.
  obtain ⟨gone, run, kept, rfl, all, length, same, fresh⟩ :
      ∃ gone run kept, items = gone ++ (run ++ kept) ∧ (∀ item ∈ run, inner item = true) ∧
        run.length + kept.length = limit ∧ window inner limit items = kept ∧
        ∀ item ∈ kept.head?, inner item = false := by
    have last : (items.drop (items.length - limit)).length = limit := by
      rw [List.length_drop]
      omega
    refine ⟨items.take (items.length - limit), (items.drop (items.length - limit)).takeWhile inner,
      (items.drop (items.length - limit)).dropWhile inner, ?_, ?_, ?_, ?_, head_dropWhile _⟩
    · rw [List.takeWhile_append_dropWhile, List.take_append_drop]
    · exact fun item member => List.mem_takeWhile_imp member
    · rw [← List.length_append, List.takeWhile_append_dropWhile, last]
    · rw [window, if_pos long]
  simp only [List.length_append] at long
  rw [same]
  by_cases more : limit < (kept ++ new).length
  · refine .inl ?_
    have whole := @window_append _ inner limit (gone ++ run) (kept ++ new) more
    simpa using whole.symm
  rw [List.length_append] at more
  have begins := @window_inner _ inner limit gone run (kept ++ new) all (by simp; omega)
    (by simp; omega) (by simp; omega)
  have whole : gone ++ (run ++ kept) ++ new = gone ++ (run ++ (kept ++ new)) := by simp
  rw [window_short (by simp; omega : (kept ++ new).length ≤ limit), whole]
  by_cases inside : ∃ first ∈ (kept ++ new).head?, inner first = true
  · refine .inr ⟨gone, run, rfl, ?_, all, ?_, inside, by simp; omega⟩
    · rintro rfl
      simp at long
      omega
    · cases kept with
      | nil => simpa using length
      | cons first kept =>
        obtain ⟨other, head, stray⟩ := inside
        cases head
        rw [fresh first rfl] at stray
        cases stray
  · refine .inl ?_
    rw [begins]
    generalize kept ++ new = appended at inside
    cases appended with
    | nil => rfl
    | cons first rest =>
      have stops : ¬ inner first = true := fun stray => inside ⟨first, rfl, stray⟩
      rw [List.dropWhile_cons_of_neg stops]

/-- Appending to what a window may be. -/
theorem Windowed.grows {items kept : List α} (windowed : Windowed inner limit items kept)
    (new : List α) : Windowed inner limit (items ++ new) (window inner limit (kept ++ new)) := by
  obtain rfl | ⟨gone, run, rfl, strands⟩ := windowed
  · exact window_grows items new
  have whole : gone ++ (run ++ kept) ++ new = gone ++ run ++ (kept ++ new) := by simp
  by_cases long : limit < (kept ++ new).length
  · exact .inl (by rw [whole, window_append long])
  · refine .inr ⟨gone, run, ?_, strands.before, strands.all, strands.length, ?_, ?_⟩
    · rw [window_short (by omega), whole, List.append_assoc]
    · obtain ⟨first, head, inside⟩ := strands.inside
      rw [window_short (by omega)]
      exact ⟨first, by simp [Option.mem_def.mp head], inside⟩
    · rw [window_short (by omega)]
      omega

theorem dropWhile_append {before behind : List α} (some_ : behind ≠ [])
    (fresh : ∀ item ∈ behind.head?, inner item = false) :
    (before ++ behind).dropWhile inner = before.dropWhile inner ++ behind := by
  induction before with
  | nil =>
    cases behind with
    | nil => exact absurd rfl some_
    | cons item behind => simp [fresh item rfl]
  | cons item before inductionHypothesis =>
    simp only [List.cons_append, List.dropWhile_cons]
    split
    · exact inductionHypothesis
    · rfl

/-- A piece at the end that is whole and fits stays whole. -/
theorem Windowed.keeps {before behind kept : List α}
    (windowed : Windowed inner limit (before ++ behind) kept) (some_ : behind ≠ [])
    (fresh : ∀ item ∈ behind.head?, inner item = false) (short : behind.length ≤ limit) :
    ∃ stays, stays <:+ before ∧ kept = stays ++ behind := by
  obtain rfl | ⟨gone, run, same, strands⟩ := windowed
  · by_cases long : limit < (before ++ behind).length
    · have place : (before ++ behind).length - limit ≤ before.length := by
        rw [List.length_append]
        omega
      refine ⟨(before.drop ((before ++ behind).length - limit)).dropWhile inner, ?_, ?_⟩
      · exact (List.dropWhile_suffix _).trans (List.drop_suffix _ _)
      · rw [window, if_pos long, List.drop_append_of_le_length place,
          dropWhile_append some_ fresh]
    · exact ⟨before, List.suffix_refl _, window_short (by omega)⟩
  · rw [← List.append_assoc] at same
    obtain ⟨part, split, rfl⟩ | ⟨part, rfl, rfl⟩ := List.append_eq_append_iff.mp same
    · -- The piece would begin among the inner elements, or be longer than the window.
      exfalso
      obtain ⟨first, head, inside⟩ := strands.inside
      cases part with
      | nil =>
        rw [fresh first head] at inside
        cases inside
      | cons item part =>
        have plain := fresh item rfl
        obtain ⟨more, rfl, tail⟩ | ⟨more, rfl, rfl⟩ := List.append_eq_append_iff.mp split.symm
        · have length := strands.length
          have filled : 0 < kept.length := by
            cases kept with
            | nil => cases head
            | cons => exact Nat.succ_pos _
          rw [tail] at short
          simp only [List.length_append] at short
          omega
        · have stray := strands.all item (by simp)
          rw [plain] at stray
          cases stray
    · exact ⟨part, List.suffix_append _ _, rfl⟩

/-- Such a window is reached by two steps. -/
theorem Strands.reached {gone run kept : List α} (strands : Strands inner limit gone run kept) :
    window inner limit (window inner limit (gone ++ run) ++ kept) = kept := by
  rw [strands.lost, List.nil_append, window_short strands.short]

end Idk.Logic
