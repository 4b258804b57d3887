import Idk.Host.Inventory

/-!
# The two scans agree

While the processes stay as they are, what is read of them is what a table of processes says.
The narrow scan visits whatever descends from the host or an anchor: `Visited` is the invariant
of its loop.

**Main result:** `inventory_exact`: a report that is complete names the processes of the
anchors' sessions, whichever scan has made it; it is complete when that scan met no limit and
no error.
-/

namespace Idk.Host

/-! ## A table of processes -/

/-- The processes besides the first one of the system; their ids are unique. -/
structure Forest (table : List Process) : Prop where
  unique : ∀ first ∈ table, ∀ second ∈ table, first.pid = second.pid → first = second
  proper : ∀ process ∈ table, 1 < process.pid

/-- What a scan can read is what the table says; it may fail to read. -/
structure Static (table : List Process) (proc : Proc) : Prop where
  stat : ∀ {pid parent session}, 1 < pid → processStat proc pid = .ok (some (parent, session)) →
    { pid, parent, session } ∈ table
  gone : ∀ {pid}, processStat proc pid = .ok none → ∀ process ∈ table, process.pid ≠ pid
  children : ∀ {pid children}, taskChildren proc pid = .ok children →
    ∀ child, child ∈ children ↔ ∃ process ∈ table, process.parent = pid ∧ process.pid = child
  entries : ∀ {entries}, proc.entries = .ok entries →
    (∀ entry ∈ entries, ∃ name, entry = .ok name) →
      ∀ process ∈ table, ∃ name, .ok name ∈ entries ∧ name.bind parsePid = some process.pid

/-- The proper descendants of a process. -/
inductive Descends (table : List Process) (root : Pid) : Pid → Prop where
  | child {process : Process} (member : process ∈ table) (parent : process.parent = root) :
      Descends table root process.pid
  | step {process : Process} (member : process ∈ table)
      (above : Descends table root process.parent) : Descends table root process.pid

/-- A process of the table that a scan for these sessions is to report. -/
def Sought (table : List Process) (sessions : List Pid) (process : Process) : Prop :=
  process ∈ table ∧ belongs sessions process.pid process.session = true

/-! ## The narrow scan -/

section Narrow

variable {table : List Process} {proc : Proc} {sessions : List Pid}

theorem enqueue_seen (children pending seen : List Pid) (pid : Pid) :
    pid ∈ (enqueue children pending seen).2 ↔ pid ∈ seen ∨ pid ∈ children := by
  induction children generalizing pending seen with
  | nil => simp [enqueue]
  | cons child rest inductionHypothesis =>
    unfold enqueue
    split
    · rename_i old
      have old : child ∈ seen := by simpa using old
      rw [inductionHypothesis, List.mem_cons]
      constructor
      · rintro (before | later)
        · exact .inl before
        · exact .inr (.inr later)
      · rintro (before | rfl | later)
        · exact .inl before
        · exact .inl old
        · exact .inr later
    · rw [inductionHypothesis, List.mem_cons, List.mem_cons]
      constructor
      · rintro ((rfl | before) | later)
        · exact .inr (.inl rfl)
        · exact .inl before
        · exact .inr (.inr later)
      · rintro (before | rfl | later)
        · exact .inl (.inr before)
        · exact .inl (.inl rfl)
        · exact .inr later

theorem enqueue_pending (children pending seen : List Pid) (pid : Pid) :
    pid ∈ (enqueue children pending seen).1 ↔ pid ∈ pending ∨ pid ∈ children ∧ pid ∉ seen := by
  induction children generalizing pending seen with
  | nil => simp [enqueue]
  | cons child rest inductionHypothesis =>
    unfold enqueue
    split
    · rename_i old
      have old : child ∈ seen := by simpa using old
      rw [inductionHypothesis]
      grind
    · rename_i new
      have new : child ∉ seen := by simpa using new
      rw [inductionHypothesis]
      grind

/-- What holds in the loop: `done` are the processes that were visited. -/
structure Visited (table : List Process) (sessions done pending seen : List Pid)
    (processes : List Process) : Prop where
  covers : ∀ pid, pid ∈ seen ↔ pid ∈ done ∨ pid ∈ pending
  present : ∀ pid ∈ seen, ∃ process ∈ table, process.pid = pid
  closed : ∀ process ∈ table, process.parent ∈ done → process.pid ∈ seen
  gathered : ∀ process, process ∈ processes ↔
    Sought table sessions process ∧ process.pid ∈ done

/-- One visit. -/
theorem Visited.visit (forest : Forest table) (static : Static table proc) {pid : Pid}
    {done pending seen children : List Pid} {processes : List Process} {parent session : Pid}
    (visited : Visited table sessions done (pid :: pending) seen processes)
    (read : processStat proc pid = .ok (some (parent, session)))
    (listed : taskChildren proc pid = .ok children) :
    Visited table sessions (pid :: done) (enqueue children pending seen).1
      (enqueue children pending seen).2
      (if belongs sessions pid session then processes ++ [Process.mk pid parent session]
      else processes) where
  covers := fun other => by
    have before := visited.covers other
    rw [enqueue_seen, enqueue_pending]
    simp only [List.mem_cons] at before ⊢
    grind
  present := fun other member => by
    obtain old | new := (enqueue_seen ..).mp member
    · exact visited.present other old
    · obtain ⟨process, there, -, same⟩ := (static.children listed other).mp new
      exact ⟨process, there, same⟩
  closed := fun process there member => by
    rw [enqueue_seen]
    obtain here | before := List.mem_cons.mp member
    · exact .inr ((static.children listed process.pid).mpr ⟨process, there, here, rfl⟩)
    · exact .inl (visited.closed process there before)
  gathered := fun process => by
    obtain ⟨known, listed, same⟩ :=
      visited.present pid ((visited.covers pid).mpr (.inr List.mem_cons_self))
    have there := static.stat (same ▸ forest.proper known listed) read
    have old := visited.gathered process
    have same (sought : Sought table sessions process) (here : process.pid = pid) :
        process = Process.mk pid parent session := forest.unique _ sought.1 _ there here
    split
    · rename_i mine
      rw [List.mem_append, List.mem_singleton, old, List.mem_cons]
      constructor
      · rintro (⟨sought, before⟩ | rfl)
        · exact ⟨sought, .inr before⟩
        · exact ⟨⟨there, mine⟩, .inl rfl⟩
      · rintro ⟨sought, here | before⟩
        · exact .inr (same sought here)
        · exact .inl ⟨sought, before⟩
    · rename_i foreign
      rw [old, List.mem_cons]
      constructor
      · rintro ⟨sought, before⟩
        exact ⟨sought, .inr before⟩
      · rintro ⟨sought, here | before⟩
        · have equal := same sought here
          subst equal
          exact absurd sought.2 foreign
        · exact ⟨sought, before⟩

theorem Visited.all {done seen : List Pid} {processes : List Process}
    (visited : Visited table sessions done [] seen processes) : ∀ pid ∈ seen, pid ∈ done :=
  fun pid member => by simpa using (visited.covers pid).mp member

/-- The loop ends when all that was seen is visited. -/
theorem walk_visited (forest : Forest table) (static : Static table proc) {left : Nat}
    {done pending seen : List Pid} {processes all : List Process}
    (visited : Visited table sessions done pending seen processes)
    (walked : walk proc sessions left pending seen processes = .ok all) :
    ∃ last others, Visited table sessions last [] others all ∧ ∀ pid ∈ seen, pid ∈ last := by
  induction left generalizing done pending seen processes with
  | zero =>
    cases pending with
    | nil =>
      cases walked
      exact ⟨done, seen, visited, visited.all⟩
    | cons pid pending => cases walked
  | succ left inductionHypothesis =>
    cases pending with
    | nil =>
      cases walked
      exact ⟨done, seen, visited, visited.all⟩
    | cons pid pending =>
      obtain ⟨_, -, walked⟩ := bind_eq_ok.mp walked
      obtain ⟨stat, read, walked⟩ := bind_eq_ok.mp walked
      cases stat with
      | none =>
        obtain ⟨process, there, same⟩ :=
          visited.present pid ((visited.covers pid).mpr (.inr List.mem_cons_self))
        exact absurd same (static.gone read process there)
      | some fields =>
        obtain ⟨parent, session⟩ := fields
        obtain ⟨children, listed, walked⟩ := bind_eq_ok.mp walked
        obtain ⟨last, others, ended, keeps⟩ :=
          inductionHypothesis (visited.visit forest static read listed) walked
        exact ⟨last, others, ended, fun other member =>
          keeps other ((enqueue_seen ..).mpr (.inl member))⟩

theorem anchorChildren_ok (static : Static table proc) {anchors : List Anchor} {roots : List Pid}
    (listed : anchorChildren proc anchors = .ok roots) (pid : Pid) :
    pid ∈ roots ↔ ∃ process ∈ table, process.pid = pid ∧
      ∃ anchor ∈ anchors, process.parent = anchor.pid := by
  induction anchors generalizing roots with
  | nil =>
    cases listed
    simp
  | cons anchor rest inductionHypothesis =>
    obtain ⟨_, -, listed⟩ := bind_eq_ok.mp listed
    obtain ⟨children, here, listed⟩ := bind_eq_ok.mp listed
    obtain ⟨others, there, listed⟩ := bind_eq_ok.mp listed
    cases listed
    rw [List.mem_append, static.children here, inductionHypothesis there]
    constructor
    · rintro (⟨process, member, parent, same⟩ | ⟨process, member, same, other, after, parent⟩)
      · exact ⟨process, member, same, anchor, List.mem_cons_self, parent⟩
      · exact ⟨process, member, same, other, List.mem_cons_of_mem _ after, parent⟩
    · rintro ⟨process, member, same, other, among, parent⟩
      obtain rfl | after := List.mem_cons.mp among
      · exact .inl ⟨process, member, parent, same⟩
      · exact .inr ⟨process, member, same, other, after, parent⟩

/-- Every process that is sought descends from the host or an anchor. -/
def Rooted (table : List Process) (host : Pid) (anchors : List Anchor) : Prop :=
  ∀ process, Sought table (anchors.map (·.pid)) process →
    ∃ root, (root = host ∨ ∃ anchor ∈ anchors, root = anchor.pid) ∧
      Descends table root process.pid

/-- A narrow scan that succeeds reports exactly what is sought. -/
theorem narrowInventory_exact (forest : Forest table) (static : Static table proc) {host : Pid}
    {anchors : List Anchor} (rooted : Rooted table host anchors) {processes : List Process}
    (found : narrowInventory proc host anchors = .ok processes) (process : Process) :
    process ∈ processes ↔ Sought table (anchors.map (·.pid)) process := by
  unfold narrowInventory at found
  dsimp only at found
  split at found
  · rename_i nobody
    cases found
    have nothing : ¬ Sought table (anchors.map (·.pid)) process := by
      rw [nobody]
      rintro ⟨-, mine⟩
      cases mine
    simpa using nothing
  · obtain ⟨roots, below, found⟩ := bind_eq_ok.mp found
    obtain ⟨adopted, own, found⟩ := bind_eq_ok.mp found
    have rootsOf := anchorChildren_ok static below
    have ownOf := static.children own
    have start : Visited table (anchors.map (·.pid)) [] (enqueue (roots ++ adopted) [] []).1
        (enqueue (roots ++ adopted) [] []).2 [] := {
      covers := fun pid => by simp [enqueue_seen, enqueue_pending]
      present := fun pid member => by
        obtain none_ | member := (enqueue_seen ..).mp member
        · cases none_
        · obtain here | here := List.mem_append.mp member
          · obtain ⟨known, there, same, -⟩ := (rootsOf pid).mp here
            exact ⟨known, there, same⟩
          · obtain ⟨known, there, -, same⟩ := (ownOf pid).mp here
            exact ⟨known, there, same⟩
      closed := fun _ _ none_ => by cases none_
      gathered := fun _ => by simp }
    obtain ⟨last, others, visited, keeps⟩ := walk_visited forest static start found
    have reached {root pid : Pid} (starts : root = host ∨ ∃ anchor ∈ anchors, root = anchor.pid)
        (descends : Descends table root pid) : pid ∈ last := by
      induction descends with
      | child member parent =>
        refine keeps _ ((enqueue_seen ..).mpr (.inr (List.mem_append.mpr ?_)))
        obtain rfl | ⟨anchor, among, rfl⟩ := starts
        · exact .inr ((ownOf _).mpr ⟨_, member, parent, rfl⟩)
        · exact .inl ((rootsOf _).mpr ⟨_, member, rfl, anchor, among, parent⟩)
      | step member _ inductionHypothesis =>
        exact visited.all _ (visited.closed _ member inductionHypothesis)
    rw [visited.gathered]
    constructor
    · exact fun both => both.1
    · intro sought
      obtain ⟨root, starts, descends⟩ := rooted process sought
      exact ⟨sought, reached starts descends⟩

end Narrow

/-! ## The full scan -/

section Full

variable {table : List Process} {proc : Proc} {limits : Limits} {sessions : List Pid}

/-- The entry is that of a process to report. -/
def Reports (proc : Proc) (sessions : List Pid) (name : Option (List Char)) (process : Process) :
    Prop :=
  name.bind parsePid = some process.pid ∧ 1 < process.pid ∧
    processStat proc process.pid = .ok (some (process.parent, process.session)) ∧
    belongs sessions process.pid process.session = true

/-- The entry is not that of a process whose file cannot be read. -/
def Readable (proc : Proc) (name : Option (List Char)) : Prop :=
  ∀ pid, name.bind parsePid = some pid → 1 < pid → ∃ fields, processStat proc pid = .ok fields

/-- An entry that does not end the scan adds what it is to report, under any limits. -/
theorem scan_step {count : Nat} {entry : Result (Option (List Char))}
    {rest : List (Result (Option (List Char)))} {processes all : List Process}
    (scanned : scan proc limits sessions count (entry :: rest) processes = (all, .ok ())) :
    ∃ name more, entry = .ok name ∧ Readable proc name ∧
      (∀ process, process ∈ more ↔ Reports proc sessions name process) ∧
      scan proc limits sessions (count + 1) rest (processes ++ more) = (all, .ok ()) ∧
      scan proc .none sessions count (entry :: rest) processes =
        scan proc .none sessions (count + 1) rest (processes ++ more) := by
  cases allowed : limits.entries count with
  | false => simp [scan, allowed] at scanned
  | true =>
    cases entry with
    | error error => simp [scan, allowed] at scanned
    | ok name =>
      have free : Limits.none.entries count = true := rfl
      cases known : name.bind parsePid with
      | none =>
        simp only [scan, allowed, free, known, if_true] at scanned ⊢
        exact ⟨name, [], rfl, fun pid => by simp [known], fun process => by simp [Reports, known],
          by simpa using scanned, by simp⟩
      | some pid =>
        by_cases small : pid ≤ 1
        · simp only [scan, allowed, free, known, small, if_true] at scanned ⊢
          refine ⟨name, [], rfl, fun other same proper => ?_, fun process => ?_,
            by simpa using scanned, by simp⟩
          · rw [known] at same
            cases same
            exact absurd small (Int.not_le_of_gt proper)
          have other : ¬ Reports proc sessions name process := by
            rintro ⟨same, proper, -⟩
            rw [known] at same
            cases same
            exact absurd small (Int.not_le_of_gt proper)
          simpa using other
        · cases stat : processStat proc pid with
          | error error => simp [scan, allowed, known, small, stat] at scanned
          | ok fields =>
            have readable : Readable proc name := by
              intro other same _
              rw [known] at same
              cases same
              exact ⟨fields, stat⟩
            cases fields with
            | none =>
              simp only [scan, allowed, free, known, small, stat, if_true, if_false] at scanned ⊢
              refine ⟨name, [], rfl, readable, fun process => ?_, by simpa using scanned, by simp⟩
              have other : ¬ Reports proc sessions name process := by
                rintro ⟨same, -, read, -⟩
                rw [known] at same
                cases same
                rw [stat] at read
                cases read
              simpa using other
            | some fields =>
              obtain ⟨parent, session⟩ := fields
              have only (process : Process) : Reports proc sessions name process →
                  process = Process.mk pid parent session := by
                rintro ⟨same, -, read, -⟩
                rw [known] at same
                cases same
                rw [stat] at read
                cases read
                rfl
              by_cases mine : belongs sessions pid session = true
              · cases room : limits.matches_ processes.length with
                | false => simp [scan, allowed, known, small, stat, mine, room] at scanned
                | true =>
                  have wide : Limits.none.matches_ processes.length = true := rfl
                  simp only [scan, allowed, free, known, small, stat, mine, room, wide, if_true,
                    if_false] at scanned ⊢
                  refine ⟨name, [Process.mk pid parent session], rfl, readable, fun process => ?_,
                    scanned, rfl⟩
                  rw [List.mem_singleton]
                  refine ⟨?_, only process⟩
                  rintro rfl
                  exact ⟨known, Int.lt_of_not_ge small, stat, mine⟩
              · simp only [scan, allowed, free, known, small, stat, mine, if_true, if_false,
                  Bool.false_eq_true] at scanned ⊢
                refine ⟨name, [], rfl, readable, fun process => ?_, by simpa using scanned, by simp⟩
                have other : ¬ Reports proc sessions name process := by
                  intro reports
                  cases only process reports
                  exact mine reports.2.2.2
                simpa using other

/-- A scan that ends without an error has read everything, and no limit has shortened it. -/
theorem scan_ok {count : Nat} {entries : List (Result (Option (List Char)))}
    {processes all : List Process}
    (scanned : scan proc limits sessions count entries processes = (all, .ok ())) :
    scan proc .none sessions count entries processes = (all, .ok ()) ∧
    (∀ entry ∈ entries, ∃ name, entry = .ok name ∧ Readable proc name) ∧
    ∀ process, process ∈ all ↔ process ∈ processes ∨
      ∃ name, .ok name ∈ entries ∧ Reports proc sessions name process := by
  induction entries generalizing count processes with
  | nil =>
    cases scanned
    exact ⟨rfl, by simp, by simp⟩
  | cons entry rest inductionHypothesis =>
    obtain ⟨name, more, rfl, read, reports, further, same⟩ := scan_step scanned
    obtain ⟨free, readable, exactly⟩ := inductionHypothesis further
    refine ⟨same.trans free, List.forall_mem_cons.mpr ⟨⟨name, rfl, read⟩, readable⟩,
      fun process => ?_⟩
    rw [exactly, List.mem_append, reports, or_assoc]
    refine or_congr_right ⟨?_, ?_⟩
    · rintro (here | ⟨other, later, there⟩)
      · exact ⟨name, List.mem_cons_self, here⟩
      · exact ⟨other, List.mem_cons_of_mem _ later, there⟩
    · rintro ⟨other, member, there⟩
      obtain same | later := List.mem_cons.mp member
      · cases same
        exact .inl there
      · exact .inr ⟨other, later, there⟩

/-- A full scan that ends without an error reports exactly what is sought. -/
theorem fullInventory_exact (forest : Forest table) (static : Static table proc)
    {anchors : List Anchor} {processes : List Process}
    (found : fullInventory proc limits anchors = (processes, .ok ())) :
    fullInventory proc .none anchors = (processes, .ok ()) ∧
      ∀ process, process ∈ processes ↔ Sought table (anchors.map (·.pid)) process := by
  unfold fullInventory at found ⊢
  cases listing : proc.entries with
  | error error =>
    rw [listing] at found
    cases found
  | ok entries =>
    rw [listing] at found
    obtain ⟨free, readable, exactly⟩ := scan_ok found
    refine ⟨free, fun process => ?_⟩
    rw [exactly]
    constructor
    · rintro (none_ | ⟨name, -, known, proper, read, mine⟩)
      · cases none_
      · exact ⟨static.stat proper read, mine⟩
    · rintro ⟨there, mine⟩
      obtain ⟨name, listed, known⟩ := static.entries listing (fun entry member => by
        obtain ⟨name, same, -⟩ := readable entry member
        exact ⟨name, same⟩) process there
      obtain ⟨_, same, reads⟩ := readable _ listed
      cases same
      have proper := forest.proper process there
      obtain ⟨fields, stat⟩ := reads process.pid known proper
      cases fields with
      | none => exact absurd rfl (static.gone stat process there)
      | some fields =>
        have equal := forest.unique _ there _ (static.stat proper stat) rfl
        refine .inr ⟨name, listed, known, proper, ?_, mine⟩
        rw [stat, equal]

end Full

/-! ## The reports -/

section Reports

variable {table : List Process} {narrow full : Proc} {host : Pid} {anchors : List Anchor}

theorem scanned_narrow {processes : List Process}
    (found : narrowInventory narrow host anchors = .ok processes) :
    scanned narrow full host anchors =
      { anchors, processes, complete := true, error := none } := by
  rw [scanned, inventory, found]

theorem scanned_full {processes : List Process} {error : String}
    (failed : narrowInventory narrow host anchors = .error error)
    (found : fullInventory full full.limits anchors = (processes, .ok ())) :
    scanned narrow full host anchors =
      { anchors, processes, complete := true, error := none } := by
  rw [scanned, inventory, failed]
  simp only [found]

theorem scanned_failed {processes : List Process} {first second : String}
    (failed : narrowInventory narrow host anchors = .error first)
    (found : fullInventory full full.limits anchors = (processes, .error second)) :
    scanned narrow full host anchors =
      { anchors, processes, complete := false, error := some (safeError second) } := by
  rw [scanned, inventory, failed]
  simp only [found]

/-- The two scans find the same processes, and a complete report has missed none of them. -/
theorem inventory_exact (forest : Forest table) (narrowStatic : Static table narrow)
    (fullStatic : Static table full) (rooted : Rooted table host anchors) :
    (∀ processes, narrowInventory narrow host anchors = .ok processes →
      ∀ others, fullInventory full .none anchors = (others, .ok ()) →
        ∀ process, process ∈ processes ↔ process ∈ others) ∧
    ((scanned narrow full host anchors).complete = true ↔
      (∃ processes, narrowInventory narrow host anchors = .ok processes) ∨
        (fullInventory full full.limits anchors).2 = .ok ()) ∧
    ((fullInventory full full.limits anchors).2 = .ok () →
      fullInventory full .none anchors = fullInventory full full.limits anchors) ∧
    ((scanned narrow full host anchors).complete = true →
      ∀ process, process ∈ (scanned narrow full host anchors).processes ↔
        Sought table (anchors.map (·.pid)) process) := by
  refine ⟨fun processes found others all process => ?_, ?_, fun done => ?_, ?_⟩
  · exact (narrowInventory_exact forest narrowStatic rooted found process).trans
      ((fullInventory_exact forest fullStatic all).2 process).symm
  · cases first : narrowInventory narrow host anchors with
    | ok processes => simp [scanned_narrow first]
    | error error =>
      cases second : fullInventory full full.limits anchors with
      | mk processes result =>
        cases result with
        | ok done => simp [scanned_full first second]
        | error later => simp [scanned_failed first second]
  · cases second : fullInventory full full.limits anchors with
    | mk processes result =>
      rw [second] at done
      cases done
      exact (fullInventory_exact forest fullStatic second).1
  · intro complete
    cases first : narrowInventory narrow host anchors with
    | ok processes =>
      rw [scanned_narrow first]
      exact narrowInventory_exact forest narrowStatic rooted first
    | error error =>
      cases second : fullInventory full full.limits anchors with
      | mk processes result =>
        cases result with
        | ok done =>
          rw [scanned_full first second]
          exact (fullInventory_exact forest fullStatic second).2
        | error later => simp [scanned_failed first second] at complete

end Reports

/-! ### A shell with one child -/

/-- `csh` as the leader of a session, with a child; the list of its children may be
    unreadable. -/
def shellTable : List Process := [⟨20, 10, 20⟩, ⟨21, 20, 20⟩]

def shellProc (readable : Bool) : Proc where
  entries := .ok [.ok (some ['2', '0']), .ok (some ['2', '1'])]
  stat pid :=
    if pid = 20 then
      .found [50, 48, 32, 40, 99, 41, 32, 83, 32, 49, 48, 32, 50, 48, 32, 50, 48]
    else if pid = 21 then
      .found [50, 49, 32, 40, 99, 41, 32, 83, 32, 50, 48, 32, 50, 48, 32, 50, 48]
    else .gone
  tasks pid :=
    if pid = 10 then .found [.ok (.found [50, 48, 32])]
    else if pid = 20 then
      if readable then .found [.ok (.found [50, 49, 32])] else .failed "EIO"
    else if pid = 21 then .found [.ok (.found [])]
    else .gone
  inTime _ := true

theorem shell_forest : Forest shellTable where
  unique := by decide
  proper := by decide

theorem shell_stat (readable : Bool) (pid : Pid) : processStat (shellProc readable) pid =
    .ok (if pid = 20 then some (10, 20) else if pid = 21 then some (20, 20) else none) := by
  by_cases leader : pid = 20
  · subst leader
    rfl
  · by_cases child : pid = 21
    · subst child
      rfl
    · simp [processStat, shellProc, leader, child]

theorem shell_children (readable : Bool) (pid : Pid) {children : List Pid}
    (listed : taskChildren (shellProc readable) pid = .ok children) :
    children = if pid = 10 then [20] else if pid = 20 then [21] else [] := by
  by_cases host : pid = 10
  · subst host
    cases listed
    rfl
  · by_cases leader : pid = 20
    · subst leader
      cases readable with
      | false => cases listed
      | true =>
        cases listed
        rfl
    · by_cases child : pid = 21
      · subst child
        cases listed
        rfl
      · simp only [taskChildren, shellProc, host, leader, child, if_false] at listed ⊢
        cases listed
        rfl

theorem shell_static (readable : Bool) : Static shellTable (shellProc readable) where
  stat := fun {pid parent session} _ read => by
    rw [shell_stat] at read
    split at read
    · rename_i leader
      cases leader
      cases read
      decide
    · split at read
      · rename_i child
        cases child
        cases read
        decide
      · cases read
  gone := fun {pid} read process member => by
    rw [shell_stat] at read
    rintro rfl
    simp only [shellTable, List.mem_cons, List.not_mem_nil, or_false] at member
    obtain rfl | rfl := member <;> cases read
  children := fun {pid children} listed child => by
    have known : (∃ process ∈ shellTable, process.parent = pid ∧ process.pid = child) ↔
        10 = pid ∧ 20 = child ∨ 20 = pid ∧ 21 = child := by simp [shellTable]
    rw [shell_children readable pid listed, known]
    grind
  entries := fun {entries} listing _ process member => by
    cases listing
    simp only [shellTable, List.mem_cons, List.not_mem_nil, or_false] at member
    obtain rfl | rfl := member
    · exact ⟨some ['2', '0'], by simp, rfl⟩
    · exact ⟨some ['2', '1'], by simp, rfl⟩

theorem shell_rooted : Rooted shellTable 10 [⟨"shell", 20⟩] := by
  rintro process ⟨member, mine⟩
  simp only [shellTable, List.mem_cons, List.not_mem_nil, or_false] at member
  obtain rfl | rfl := member
  · cases mine
  · exact ⟨20, .inr ⟨⟨"shell", 20⟩, by simp, rfl⟩, .child (by decide) rfl⟩

/-- A read error of the narrow scan is made good by the full one. -/
theorem shell_retried :
    Forest shellTable ∧ Static shellTable (shellProc false) ∧
      Rooted shellTable 10 [⟨"shell", 20⟩] ∧
      narrowInventory (shellProc false) 10 [⟨"shell", 20⟩] = .error "read process task list" ∧
      (scanned (shellProc false) (shellProc false) 10 [⟨"shell", 20⟩]).complete = true :=
  ⟨shell_forest, shell_static false, shell_rooted, rfl, rfl⟩

theorem inventory_exact_shell :
    (scanned (shellProc true) (shellProc true) 10 [⟨"shell", 20⟩]).processes = [⟨21, 20, 20⟩] ∧
      Sought shellTable [20] ⟨21, 20, 20⟩ :=
  ⟨rfl, ((inventory_exact shell_forest (shell_static true) (shell_static true)
    shell_rooted).2.2.2 rfl ⟨21, 20, 20⟩).mp (by exact List.mem_singleton.mpr rfl)⟩

end Idk.Host
