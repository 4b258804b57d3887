import Idk.Base

/-!
# Descendant inventories

What one scan of the host's descendants reports (`children.rs`).  An anchor is the
unreaped leader of a session; its process id is the id of the session.
-/

namespace Idk.Host

/-- `libc::pid_t`. -/
abbrev Pid := Int

structure Anchor where
  session : String
  pid : Pid
deriving DecidableEq, Repr

structure Process where
  pid : Pid
  parent : Pid
  session : Pid
deriving DecidableEq, Repr

structure Report where
  anchors : List Anchor
  processes : List Process
  complete : Bool
  error : Option String
deriving DecidableEq, Repr

inductive ChildState where
  | running
  | exited
deriving DecidableEq, Repr

/-- What the system answers about one child: `verify_child`, `reap_child`, `signal_child`. -/
structure ChildAnswer where
  verify : Result ChildState
  reap : Result Unit
  signal : Result Unit

/-- The report is about this anchor and finds nothing left of its session. -/
def Report.Empty (report : Report) (anchor : Anchor) : Prop :=
  anchor ∈ report.anchors ∧ report.complete = true ∧ report.error = none ∧
    ∀ process ∈ report.processes, process.session ≠ anchor.pid

end Idk.Host
