import Mathlib.Data.Set.Insert

/-!
# A resource shared by many holders or held by one

The abstract readers-writer discipline.  `Holders τ` carries its own exclusion
property, so that a state with both kinds of holders cannot be built.  A step
grants or releases one holder, or does nothing.

**Main rule:** `exclusive_blocks`: while someone holds the resource exclusively,
every step other than that holder's release leaves the holders as they are.
-/

namespace Idk.Logic

/-- Who holds a resource. -/
structure Holders (τ : Type) where
  shared : Set τ
  exclusive : Option τ
  apart : exclusive.isSome → shared = ∅

namespace Holders

variable {τ : Type}

@[ext] theorem ext {left right : Holders τ} (shared : left.shared = right.shared)
    (exclusive : left.exclusive = right.exclusive) : left = right := by
  cases left; cases right; simp_all

inductive Act (τ : Type) where
  | grantShared (token : τ)
  | grantExclusive (token : τ)
  | releaseShared (token : τ)
  | releaseExclusive (token : τ)
  | idle

/-- One step of the discipline, by its effect on the two sets of holders. -/
inductive Step : Holders τ → Act τ → Holders τ → Prop where
  | grantShared {before after : Holders τ} {token : τ} :
      before.exclusive = none → token ∉ before.shared →
      after.shared = insert token before.shared → after.exclusive = none →
      Step before (.grantShared token) after
  | grantExclusive {before after : Holders τ} {token : τ} :
      before.exclusive = none → before.shared = ∅ →
      after.shared = ∅ → after.exclusive = some token →
      Step before (.grantExclusive token) after
  | releaseShared {before after : Holders τ} {token : τ} :
      token ∈ before.shared → after.shared = before.shared \ {token} →
      after.exclusive = before.exclusive → Step before (.releaseShared token) after
  | releaseExclusive {before after : Holders τ} {token : τ} :
      before.exclusive = some token → after.shared = before.shared →
      after.exclusive = none → Step before (.releaseExclusive token) after
  | idle (holders : Holders τ) : Step holders .idle holders

/-- Exclusive holding freezes the resource until its own release. -/
theorem exclusive_blocks {before after : Holders τ} {act : Act τ} {token : τ}
    (held : before.exclusive = some token) (taken : Step before act after) :
    after = before ∨ act = .releaseExclusive token := by
  cases taken with
  | grantShared free => simp [held] at free
  | grantExclusive free => simp [held] at free
  | releaseShared member =>
    have empty := before.apart (by simp [held])
    simp [empty] at member
  | releaseExclusive same =>
    right
    rw [held] at same
    cases same
    rfl
  | idle => exact .inl rfl

end Holders

end Idk.Logic
