import Mathlib.Algebra.Ring.Int.Defs
import Mathlib.Algebra.Ring.Nat
import Std.Data.TreeMap

/-!
# Vocabulary shared by every component

Fallible functions of the source return `Result`; the text of an error is kept,
its chained context is not.  Identifiers are the strings the source uses.  A path
is its list of components, so that the component-wise `starts_with` of the source
is a list prefix.
-/

namespace Idk

/-- `anyhow::Result`. -/
abbrev Result := Except String

/-- `ensure!(condition, message)`. -/
def ensure (condition : Bool) (message : String) : Result Unit :=
  if condition then .ok () else .error message

@[simp] theorem ensure_true (message : String) : ensure true message = .ok () := rfl

@[simp] theorem ensure_false (message : String) : ensure false message = .error message := rfl

@[simp] theorem ensure_eq_ok {condition : Bool} {message : String} {done : Unit} :
    ensure condition message = .ok done ↔ condition = true := by
  cases condition <;> simp

/-- `option.context(message)`. -/
def context {α : Type} (value : Option α) (message : String) : Result α :=
  match value with
  | some value => .ok value
  | none => .error message

@[simp] theorem context_eq_ok {α : Type} {value : Option α} {message : String} {found : α} :
    context value message = .ok found ↔ value = some found := by
  cases value <;> simp [context]

theorem bind_eq_ok {α β : Type} {first : Result α} {next : α → Result β} {value : β} :
    first >>= next = .ok value ↔ ∃ middle, first = .ok middle ∧ next middle = .ok value := by
  cases first <;> simp [bind, Except.bind]

/-- `BTreeMap<String, _>`. -/
abbrev BTreeMap (β : Type) := Std.TreeMap String β

/-- `a.saturating_add(b)` on 64 bits. -/
def saturatingAdd (left right : Nat) : Nat := min (left + right) (2 ^ 64 - 1)

/-- An absolute path by its components. -/
abbrev PathBuf := List String

/-- `path.starts_with(base)`, component by component. -/
def PathBuf.startsWith (path base : PathBuf) : Bool := base.isPrefixOf path

end Idk
