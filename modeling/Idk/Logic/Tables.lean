import Mathlib.Data.List.FinRange
import Mathlib.Data.List.Nodup
import Mathlib.Data.List.Pairwise
import Mathlib.Data.List.Perm.Subperm
import Mathlib.Logic.Function.Basic

/-!
# Lookups in tables

The lemmas of `Std.TreeMap` about a changed key, for keys whose order decides equality,
and what replacing one entry does to what the entries of a finite table hold; and how many
entries of a map meet a condition, compared by their keys.
-/

namespace Idk.Logic

/-! ## Ordered maps -/

section Ordered

variable {κ α : Type} {cmp : κ → κ → Ordering} [Std.TransCmp cmp] [Std.LawfulEqCmp cmp]

theorem modify_get [DecidableEq κ] (entries : Std.TreeMap κ α cmp) (key other : κ)
    (change : α → α) :
    (entries.modify key change)[other]? =
      if key = other then entries[other]?.map change else entries[other]? := by
  by_cases same : key = other
  · subst same
    simp
  · simp [Std.TreeMap.getElem?_modify, same]

theorem insert_get [DecidableEq κ] (entries : Std.TreeMap κ α cmp) (key other : κ) (value : α) :
    (entries.insert key value)[other]? = if key = other then some value else entries[other]? := by
  simp [Std.TreeMap.getElem?_insert]

theorem erase_get [DecidableEq κ] (entries : Std.TreeMap κ α cmp) (key other : κ) :
    (entries.erase key)[other]? = if key = other then none else entries[other]? := by
  simp [Std.TreeMap.getElem?_erase]

/-! ### How many entries there are -/

/-- The keys whose entry meets a condition. -/
def keysWhere (entries : Std.TreeMap κ α cmp) (condition : α → Bool) : List κ :=
  (entries.toList.filter fun entry => condition entry.2).map (·.1)

theorem mem_keysWhere {entries : Std.TreeMap κ α cmp} {condition : α → Bool} {key : κ} :
    key ∈ keysWhere entries condition ↔
      ∃ value, entries[key]? = some value ∧ condition value = true := by
  simp [keysWhere]

omit [Std.LawfulEqCmp cmp] in
theorem nodup_keysWhere (entries : Std.TreeMap κ α cmp) (condition : α → Bool) :
    (keysWhere entries condition).Nodup := by
  have keys : (entries.toList.map (·.1)).Nodup := by
    rw [show entries.toList.map (·.1) = entries.keys from Std.TreeMap.map_fst_toList_eq_keys]
    exact entries.nodup_keys
  exact keys.sublist (List.filter_sublist.map _)

omit [Std.TransCmp cmp] [Std.LawfulEqCmp cmp] in
theorem length_keysWhere (entries : Std.TreeMap κ α cmp) (condition : α → Bool) :
    (keysWhere entries condition).length =
      (entries.toList.filter fun entry => condition entry.2).length := by
  simp [keysWhere]

variable {β : Type}

/-- The entries that meet a condition are no more than others that have their keys. -/
theorem count_le {entries : Std.TreeMap κ α cmp} {others : Std.TreeMap κ β cmp}
    {condition : α → Bool} {other : β → Bool}
    (inside : ∀ (key : κ) value, entries[key]? = some value → condition value = true →
      ∃ found, others[key]? = some found ∧ other found = true) :
    (entries.toList.filter fun entry => condition entry.2).length ≤
      (others.toList.filter fun entry => other entry.2).length := by
  rw [← length_keysWhere, ← length_keysWhere]
  refine ((nodup_keysWhere entries condition).subperm fun key member => ?_).length_le
  obtain ⟨value, found, meets⟩ := mem_keysWhere.mp member
  exact mem_keysWhere.mpr (inside key value found meets)

/-- One key more makes at most one entry more. -/
theorem count_le_succ {entries : Std.TreeMap κ α cmp} {others : Std.TreeMap κ β cmp}
    {condition : α → Bool} {other : β → Bool} (new : κ)
    (inside : ∀ (key : κ) value, entries[key]? = some value → condition value = true →
      key = new ∨ ∃ found, others[key]? = some found ∧ other found = true) :
    (entries.toList.filter fun entry => condition entry.2).length ≤
      (others.toList.filter fun entry => other entry.2).length + 1 := by
  rw [← length_keysWhere, ← length_keysWhere, ← List.length_cons]
  refine ((nodup_keysWhere entries condition).subperm fun key member => ?_).length_le
  obtain ⟨value, found, meets⟩ := mem_keysWhere.mp member
  rw [List.mem_cons]
  exact (inside key value found meets).imp_right mem_keysWhere.mpr

theorem size_le {entries : Std.TreeMap κ α cmp} {others : Std.TreeMap κ β cmp}
    (inside : ∀ (key : κ) value, entries[key]? = some value → ∃ found, others[key]? = some found) :
    entries.size ≤ others.size := by
  let all {γ : Type} (_ : γ) : Bool := true
  have counted : (entries.toList.filter fun entry => all entry.2).length ≤
      (others.toList.filter fun entry => all entry.2).length :=
    count_le fun key value found _ => (inside key value found).imp fun _ there => ⟨there, rfl⟩
  simpa [all] using counted

end Ordered

/-! ## Entries by index -/

section Indexed

variable {α β : Type} {n : Nat}

/-- What the entries hold, when one of them is replaced. -/
theorem filterMap_update (entries : Fin n → α) (index : Fin n) (entry : α)
    (value? : α → Option β) :
    ((value? (entries index)).toList ++
        (List.finRange n).filterMap fun other => value? (Function.update entries index entry other)).Perm
      ((value? entry).toList ++ (List.finRange n).filterMap fun other => value? (entries other)) := by
  have split : (List.finRange n).Perm (index :: (List.finRange n).erase index) :=
    List.perm_cons_erase (List.mem_finRange index)
  have rest : ((List.finRange n).erase index).filterMap
      (fun other => value? (Function.update entries index entry other)) =
      ((List.finRange n).erase index).filterMap fun other => value? (entries other) := by
    refine List.filterMap_congr fun other member => ?_
    have different : other ≠ index := ((List.nodup_finRange n).mem_erase_iff.mp member).1
    rw [Function.update_of_ne different]
  have head : ∀ (each : Fin n → Option β) (tail : List (Fin n)),
      (index :: tail).filterMap each = (each index).toList ++ tail.filterMap each := by
    intro each tail
    cases known : each index <;> simp [known]
  have before := split.filterMap fun other => value? (entries other)
  have after := split.filterMap fun other => value? (Function.update entries index entry other)
  rw [head, Function.update_self, rest] at after
  rw [head] at before
  -- both sides are the two entries at the index and what there is elsewhere
  refine (after.append_left _).trans (.trans ?_ (before.append_left _).symm)
  rw [← List.append_assoc, ← List.append_assoc]
  exact List.perm_append_comm.append_right _

/-- Where nothing is held twice, no two entries hold the same. -/
theorem filterMap_single (entries : Fin n → α) (value? : α → Option β)
    (single : ((List.finRange n).filterMap fun index => value? (entries index)).Nodup)
    {first second : Fin n} {value : β} (one : value? (entries first) = some value)
    (two : value? (entries second) = some value) : first = second := by
  by_contra different
  let apart (left right : Fin n) : Prop := ∀ value, value? (entries left) = some value →
    ∀ other, value? (entries right) = some other → value ≠ other
  have symmetric : Std.Symm apart := ⟨fun _ _ apart value known other there same =>
    apart other there value known same.symm⟩
  have filtered : (List.finRange n).Pairwise apart := List.pairwise_filterMap.mp single
  exact filtered.forall (List.mem_finRange first) (List.mem_finRange second) different value one
    value two rfl
end Indexed

end Idk.Logic
