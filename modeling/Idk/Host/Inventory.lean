import Idk.Host.Children
import Idk.Protocol.Envelope
import Idk.Text

/-!
# The scans of the descendants

The worker of `children.rs`: the narrow scan along the lists of children, and the full scan of
all processes that it falls back to.  What is read below `/proc` are the answers `Proc`.
-/

namespace Idk.Host

/-! ## Files below `/proc` -/

/-- What opening and reading comes to; a file of a process that is gone is no error. -/
inductive Read (α : Type) where
  | gone
  | failed (error : String)
  | found (value : α)

/-- The answers of the system during one scan. -/
structure Proc where
  /-- The names in `/proc`; one that is not UTF-8 is `none`. -/
  entries : Result (List (Result (Option (List Char))))
  /-- `/proc/<pid>/stat`. -/
  stat : Pid → Read (List UInt8)
  /-- `/proc/<pid>/task`, with the `children` file of each task. -/
  tasks : Pid → Read (List (Result (Read (List UInt8))))
  /-- Less than two seconds have passed at this turn of a loop. -/
  inTime : Nat → Bool

/-- `str::split_whitespace`, behind what is read of the word so far. -/
def words (word : List Char) : List Char → List (List Char)
  | [] => if word = [] then [] else [word]
  | char :: rest =>
    if isWhitespace char then if word = [] then words [] rest else word :: words [] rest
    else words (word ++ [char]) rest

/-- The number that digits are read as. -/
def parseDigits (digits : List Char) : Option Nat :=
  if digits ≠ [] ∧ digits.all Char.isDigit then
    some (digits.foldl (fun value digit => 10 * value + (digit.toNat - '0'.toNat)) 0)
  else none

/-- The digits behind a sign. -/
def parseSigned : List Char → Option Int
  | '-' :: digits => (parseDigits digits).map fun value => -(value : Int)
  | '+' :: digits => (parseDigits digits).map Int.ofNat
  | digits => (parseDigits digits).map Int.ofNat

/-- `parse::<pid_t>`. -/
def parsePid (text : List Char) : Option Pid :=
  (parseSigned text).filter fun value => -2147483648 ≤ value && value ≤ 2147483647

def decodeUtf8 (bytes : List UInt8) : Result (List Char) :=
  context ((String.fromUTF8? ⟨bytes.toArray⟩).map String.toList) "invalid utf-8 sequence"

/-- What stands behind the last `") "`. -/
def afterComm : List UInt8 → Option (List UInt8)
  | [] => none
  | byte :: rest =>
    match afterComm rest with
    | some tail => some tail
    | none => if byte = 0x29 ∧ rest.head? = some 0x20 then some rest.tail else none

/-- `parse_stat_fields`: the parent and the session. -/
def parseStatFields (bytes : List UInt8) : Result (Pid × Pid) := do
  let tail ← context (afterComm bytes) "invalid process status format"
  let text ← decodeUtf8 tail
  match (words [] text).take 4 with
  | [_, parent, _, session] =>
    let parent ← context (parsePid parent) "invalid digit found in string"
    let session ← context (parsePid session) "invalid digit found in string"
    return (parent, session)
  | _ => .error "incomplete process status inventory"

/-- `process_stat`. -/
def processStat (proc : Proc) (pid : Pid) : Result (Option (Pid × Pid)) :=
  match proc.stat pid with
  | .gone => .ok none
  | .failed _ => .error "read process session inventory"
  | .found bytes => do
    ensure ((bytes.take 8193).length ≤ 8192) "process status exceeded inventory limit"
    let fields ← parseStatFields bytes
    return some fields

/-- The loop of `task_children` over the tasks. -/
def listChildren : List (Result (Read (List UInt8))) → Result (List Pid)
  | [] => .ok []
  | task :: rest => do
    match ← task with
    | .gone => listChildren rest
    | .failed _ => .error "read task children list"
    | .found bytes =>
      ensure ((bytes.take 8193).length ≤ 8192) "process children list exceeded inventory limit"
      let text ← decodeUtf8 bytes
      let others ← listChildren rest
      return (words [] text).filterMap parsePid ++ others

/-- `task_children`. -/
def taskChildren (proc : Proc) (pid : Pid) : Result (List Pid) :=
  match proc.tasks pid with
  | .gone => .ok []
  | .failed _ => .error "read process task list"
  | .found tasks => listChildren tasks

/-! ## The narrow scan -/

/-- `MAX_MATCHES`. -/
def maxMatches : Nat := 256

/-- `MAX_PROC_ENTRIES`. -/
def maxProcEntries : Nat := 131072

/-- `MAX_VISITED`. -/
def maxVisited : Nat := 4096

/-- A process of an anchor's session that is not its leader. -/
def belongs (sessions : List Pid) (pid session : Pid) : Bool :=
  sessions.contains session && pid != session

/-- `enqueue`, of all of them: the pending processes and those that were seen. -/
def enqueue : List Pid → List Pid → List Pid → List Pid × List Pid
  | [], pending, seen => (pending, seen)
  | pid :: rest, pending, seen =>
    if seen.contains pid then enqueue rest pending seen
    else enqueue rest (pending ++ [pid]) (pid :: seen)

/-- The loop of `narrow_inventory`, with so many visits left. -/
def walk (proc : Proc) (sessions : List Pid) :
    Nat → List Pid → List Pid → List Process → Result (List Process)
  | _, [], _, processes => .ok processes
  | 0, _ :: _, _, _ => .error "descendant inventory reached its bounded scan limit"
  | left + 1, pid :: pending, seen, processes => do
    ensure (processes.length < maxMatches && proc.inTime (maxVisited - left))
      "descendant inventory reached its bounded scan limit"
    match ← processStat proc pid with
    | none => walk proc sessions left pending seen processes
    | some (parent, session) =>
      let children ← taskChildren proc pid
      let (pending, seen) := enqueue children pending seen
      walk proc sessions left pending seen
        (if belongs sessions pid session then processes ++ [{ pid, parent, session }]
        else processes)

/-- The children of the anchors. -/
def anchorChildren (proc : Proc) : List Anchor → Result (List Pid)
  | [] => .ok []
  | anchor :: rest => do
    ensure (1 < anchor.pid) "descendant inventory anchor is not a child"
    let children ← taskChildren proc anchor.pid
    let others ← anchorChildren proc rest
    return children ++ others

/-- `narrow_inventory`; `host` is the process of the host. -/
def narrowInventory (proc : Proc) (host : Pid) (anchors : List Anchor) : Result (List Process) := do
  let sessions := anchors.map (·.pid)
  if sessions = [] then return []
  let roots ← anchorChildren proc anchors
  let adopted ← taskChildren proc host
  let (pending, seen) := enqueue (roots ++ adopted) [] []
  walk proc sessions maxVisited pending seen []

/-! ## The full scan -/

/-- What bounds a full scan: the entries and the time, and the matches. -/
structure Limits where
  entries : Nat → Bool
  matches_ : Nat → Bool

/-- The limits of `full_inventory`. -/
def Proc.limits (proc : Proc) : Limits where
  entries count := count < maxProcEntries && proc.inTime count
  matches_ count := count < maxMatches

def Limits.none : Limits where
  entries _ := true
  matches_ _ := true

/-- The loop of `full_inventory`, with what is reported where it ends early. -/
def scan (proc : Proc) (limits : Limits) (sessions : List Pid) :
    Nat → List (Result (Option (List Char))) → List Process → List Process × Result Unit
  | _, [], processes => (processes, .ok ())
  | count, entry :: rest, processes =>
    if limits.entries count then
      match entry with
      | .error error => (processes, .error error)
      | .ok name =>
        match name.bind parsePid with
        | none => scan proc limits sessions (count + 1) rest processes
        | some pid =>
          if pid ≤ 1 then scan proc limits sessions (count + 1) rest processes
          else
            match processStat proc pid with
            | .error error => (processes, .error error)
            | .ok none => scan proc limits sessions (count + 1) rest processes
            | .ok (some (parent, session)) =>
              if belongs sessions pid session then
                if limits.matches_ processes.length then
                  scan proc limits sessions (count + 1) rest
                    (processes ++ [{ pid, parent, session }])
                else (processes, .error
                  "descendant inventory exceeded 256 matches; cleanup continues in bounded rounds")
              else scan proc limits sessions (count + 1) rest processes
    else (processes, .error "descendant inventory reached its bounded scan limit")

/-- `full_inventory`. -/
def fullInventory (proc : Proc) (limits : Limits) (anchors : List Anchor) :
    List Process × Result Unit :=
  match proc.entries with
  | .error error => ([], .error error)
  | .ok entries => scan proc limits (anchors.map (·.pid)) 0 entries []

/-! ## The worker -/

/-- `inventory`, whose full scan starts without what the narrow one has found. -/
def inventory (narrow full : Proc) (host : Pid) (anchors : List Anchor) :
    List Process × Result Unit :=
  match narrowInventory narrow host anchors with
  | .ok processes => (processes, .ok ())
  | .error _ => fullInventory full full.limits anchors

/-- One report of the worker. -/
def scanned (narrow full : Proc) (host : Pid) (anchors : List Anchor) : Report :=
  match inventory narrow full host anchors with
  | (processes, .ok ()) => { anchors, processes, complete := true, error := none }
  | (processes, .error error) =>
    { anchors, processes, complete := false, error := some (safeError error) }

end Idk.Host
