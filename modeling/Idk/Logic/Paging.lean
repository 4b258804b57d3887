import Mathlib.Data.List.Basic

/-!
# Reading a list page by page

A page shows some items from an offset on and says where the next one begins.  A client asks
for page after page until none follows.

**Main rule:** `follow_serves`: pages that show what is next, and never nothing before the
end, are together the whole list.
-/

namespace Idk.Logic

universe u

variable {α : Type u}

structure Page (α : Type u) where
  items : List α
  next : Nat
  more : Bool

/-- The items of all pages from an offset on.  Each round may be answered in its own way, and
    at most `fuel` pages are asked for. -/
def follow (fetch : Nat → Nat → Option (Page α)) (round offset : Nat) : Nat → Option (List α)
  | 0 => none
  | fuel + 1 =>
    match fetch round offset with
    | none => none
    | some page =>
      if page.more then (follow fetch (round + 1) page.next fuel).map (page.items ++ ·)
      else some page.items

/-- The page of a list at an offset. -/
structure Page.Serves (page : Page α) (whole : List α) (offset : Nat) : Prop where
  items : page.items <+: whole.drop offset
  next : page.next = offset + page.items.length
  more : page.more = decide (page.next < whole.length)
  progress : offset < whole.length → page.items ≠ []

variable {whole : List α}

/-- Behind its items a page leaves what is left of the list. -/
theorem Page.Serves.drop {page : Page α} {offset : Nat} (serves : page.Serves whole offset) :
    whole.drop offset = page.items ++ whole.drop page.next := by
  obtain ⟨rest, same⟩ := serves.items
  have left : whole.drop page.next = rest := by
    rw [serves.next, ← List.drop_drop, ← same, List.drop_left]
  rw [left, same]

theorem Page.Serves.next_le {page : Page α} {offset : Nat} (serves : page.Serves whole offset)
    (within : offset ≤ whole.length) : page.next ≤ whole.length := by
  have shorter := serves.items.length_le
  rw [List.length_drop] at shorter
  have next := serves.next
  omega

/-- By induction on the fuel: every page that others follow shows an item, so that less than
    the fuel is left. -/
theorem follow_serves {fetch : Nat → Nat → Option (Page α)}
    (serves : ∀ round offset, offset ≤ whole.length →
      ∃ page, fetch round offset = some page ∧ page.Serves whole offset)
    {fuel : Nat} {round offset : Nat} (within : offset ≤ whole.length)
    (enough : whole.length - offset < fuel) :
    follow fetch round offset fuel = some (whole.drop offset) := by
  induction fuel generalizing round offset with
  | zero => omega
  | succ fuel inductionHypothesis =>
    obtain ⟨page, fetched, served⟩ := serves round offset within
    have bound := served.next_le within
    have next := served.next
    have more := served.more
    simp only [follow, fetched]
    by_cases follows : page.next < whole.length
    · have shown : page.items.length ≠ 0 := by
        intro empty
        exact served.progress (by omega) (List.length_eq_zero_iff.mp empty)
      have rest := @inductionHypothesis (round + 1) _ bound (by omega)
      simp [more, follows, rest, served.drop]
    · have last : page.next = whole.length := by omega
      simp [more, served.drop, last]

end Idk.Logic
