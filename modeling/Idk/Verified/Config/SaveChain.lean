import Idk.Config.Store

/-!
# Saves form a chain

Every rename of the workspace file replaces exactly the definition that its writer
had edited: the lock keeps the file fixed from the comparison of revisions to the
rename, and along the chain a revision belongs to one definition only, so that a
writer whose revision still matches has edited the stored definition.
-/

namespace Idk.Verified.Store

open Idk.Logic Idk.Config
open Idk.Logic.Program (Safe Stable Triple Ends)

variable {κ : Type}

/-- What a format relied on to read a stored definition back does. -/
def ReadsBack (format : Format) : Prop :=
  ∀ workspace text, format.encode workspace = .ok text → format.decode text = .ok workspace

/-- The definition a directory with content `first` starts from. -/
def StartsAs (format : Format) (first : Option String) (workspace : Workspace) : Prop :=
  Store.loadText format first = .ok workspace

theorem startsAs_functional (format : Format) (first : Option String) (left right : Workspace)
    (one : StartsAs format first left) (other : StartsAs format first right) : left = right := by
  rw [StartsAs, one] at other
  cases other
  rfl

/-- The definition and revision a call saves, from the definitions loaded so far. -/
def Prepared (format : Format) (first : Option String) (call : Call) (workspace : Workspace)
    (expected : Nat) (directory : Directory κ) : Prop :=
  match call with
  | .update edit => ∃ loaded, Version (StartsAs format first) directory.log loaded ∧
      edit loaded = .ok workspace ∧ loaded.revision = expected
  | .save saved revision => workspace = saved ∧ expected = revision

/-- What one action of a call may do to the directory. -/
inductive Change [DecidableEq κ] (format : Format) (first : Option String) (id : κ) (call : Call)
    (before after : Directory κ) : Prop where
  /-- No reader of the workspace file can tell. -/
  | quiet (lock : after.lock = before.lock)
      (file : after.files .workspace = before.files .workspace) (log : after.log = before.log)
  | locked (free : before.lock = none) (result : after = { before with lock := some id })
  | unlocked (result : after = Store.release id before)
  | stored (previous workspace : Workspace) (expected : Nat) (text : String)
      (held : before.lock = some id)
      (found : Store.loadText format (before.files .workspace) = .ok previous)
      (same : previous.revision = expected)
      (prepared : Prepared format first call workspace expected before)
      (new : Absent id before.log)
      (encoded : format.encode (workspace.stamp expected) = .ok text)
      (result : after =
        Store.rename .workspace text (some ⟨id, previous, workspace.stamp expected⟩) before)

/-! ## The invariant of the directory -/

/-- The file holds what the last replacement left. -/
def Content (format : Format) (first : Option String) :
    List (Replacement κ Workspace) → Option String → Prop
  | [], content => content = first
  | last :: _, content => ∃ text, format.encode last.after = .ok text ∧ content = some text

structure Consistent (format : Format) (first : Option String) (directory : Directory κ) :
    Prop where
  chained : Chained (StartsAs format first) directory.log
  raises : ∀ entry ∈ directory.log, entry.after.revision = entry.before.revision + 1
  content : Content format first directory.log (directory.files .workspace)
  writers : (directory.log.map (·.writer)).Nodup

variable {format : Format} {first : Option String}

/-- Loading gives the definition that was stored last. -/
theorem loaded_current (reads : ReadsBack format) {directory : Directory κ}
    (consistent : Consistent format first directory) {workspace : Workspace}
    (loaded : Store.loadText format (directory.files .workspace) = .ok workspace) :
    Current (StartsAs format first) directory.log workspace := by
  have content := consistent.content
  cases log : directory.log with
  | nil =>
    rw [log] at content
    rw [content] at loaded
    exact loaded
  | cons last older =>
    rw [log] at content
    obtain ⟨text, encoded, file⟩ := content
    have decoded := reads _ _ encoded
    rw [file, Store.loadText, bind_eq_ok] at loaded
    obtain ⟨read, limited, loaded⟩ := loaded
    rw [Store.readPrivate, bind_eq_ok] at limited
    obtain ⟨_, _, same⟩ := limited
    cases same
    obtain ⟨found, parsed, loaded⟩ := bind_eq_ok.mp loaded
    obtain ⟨_, _, returned⟩ := bind_eq_ok.mp loaded
    rw [decoded] at parsed
    cases parsed
    cases returned
    rfl

/-- Along the chain a revision belongs to one definition. -/
theorem stored_unique {directory : Directory κ} (consistent : Consistent format first directory)
    {left right : Workspace} (one : Version (StartsAs format first) directory.log left)
    (other : Version (StartsAs format first) directory.log right)
    (equal : left.revision = right.revision) : left = right :=
  consistent.chained.version_unique (startsAs_functional format first) consistent.raises one other
    equal

variable [DecidableEq κ]

theorem change_consistent (reads : ReadsBack format) {id : κ} {call : Call}
    {before after : Directory κ} (consistent : Consistent format first before)
    (change : Change format first id call before after) : Consistent format first after := by
  cases change with
  | quiet lock file log =>
    obtain ⟨chained, raises, content, writers⟩ := consistent
    exact ⟨log ▸ chained, log ▸ raises, log ▸ file ▸ content, log ▸ writers⟩
  | locked free result =>
    subst result
    exact ⟨consistent.chained, consistent.raises, consistent.content, consistent.writers⟩
  | unlocked result =>
    subst result
    unfold Store.release
    split
    · exact ⟨consistent.chained, consistent.raises, consistent.content, consistent.writers⟩
    · exact consistent
  | stored previous workspace expected text held found same prepared new encoded result =>
    subst result
    refine ⟨⟨loaded_current reads consistent found, consistent.chained⟩, ?_, ?_, ?_⟩
    · intro entry member
      cases List.mem_cons.mp member with
      | inl newest => simp [newest, same]
      | inr older => exact consistent.raises entry older
    · exact ⟨text, encoded, by simp [Store.rename]⟩
    · exact List.nodup_cons.mpr ⟨new, consistent.writers⟩

theorem release_consistent (id : κ) {directory : Directory κ}
    (consistent : Consistent format first directory) :
    Consistent format first (Store.release id directory) := by
  unfold Store.release
  split
  · exact ⟨consistent.chained, consistent.raises, consistent.content, consistent.writers⟩
  · exact consistent

/-! ## What the others cannot invalidate -/

/-- The interference that a call with this id meets. -/
abbrev Others (format : Format) (first : Option String) (id : κ) :
    Directory κ → Directory κ → Prop :=
  fun before after => Consistent format first before ∧
    (store format).others (Change format first) id before after

/-- Others leave a held lock and the file it protects alone, and their log entries are
    their own. -/
theorem others_keep {id : κ} {before after : Directory κ}
    (others : Others format first id before after) :
    (before.lock = some id → after.lock = some id ∧
        after.files .workspace = before.files .workspace ∧ after.log = before.log) ∧
      Extended id before.log after.log := by
  obtain ⟨_, other, different, acted⟩ := others
  have released : ∀ result, result = Store.release other before →
      (before.lock = some id → result.lock = some id ∧
        result.files .workspace = before.files .workspace ∧ result.log = before.log) ∧
      result.log = before.log := by
    intro result same
    subst same
    unfold Store.release
    split
    · rename_i mine
      exact ⟨fun held => absurd (Option.some.inj (mine.symm.trans held)) different, rfl⟩
    · exact ⟨fun held => ⟨held, rfl, rfl⟩, rfl⟩
  cases acted with
  | inl changed =>
    obtain ⟨call, change⟩ := changed
    cases change with
    | quiet lock file log => exact ⟨fun held => ⟨lock.trans held, file, log⟩, .inl log⟩
    | locked free result =>
      subst result
      exact ⟨fun held => by simp [free] at held, .inl rfl⟩
    | unlocked result => exact ⟨(released _ result).1, .inl (released _ result).2⟩
    | stored previous workspace expected text held found same prepared new encoded result =>
      subst result
      exact ⟨fun mine => absurd (Option.some.inj (held.symm.trans mine)) different,
        .inr ⟨⟨other, previous, workspace.stamp expected⟩, different, rfl⟩⟩
  | inr died => exact ⟨(released _ died).1, .inl (released _ died).2⟩

theorem absent_stable (id : κ) :
    Stable (Others format first id) fun directory => Absent id directory.log :=
  fun _ _ holds others => (others_keep others).2.absent holds

theorem present_stable (id : κ) :
    Stable (Others format first id) fun directory => Present id directory.log :=
  fun _ _ holds others => (others_keep others).2.present holds

theorem version_stable (id : κ) (workspace : Workspace) :
    Stable (Others format first id)
      fun directory => Version (StartsAs format first) directory.log workspace :=
  fun _ _ holds others => (others_keep others).2.version holds

theorem prepared_stable (id : κ) (call : Call) (workspace : Workspace) (expected : Nat) :
    Stable (Others format first id) (Prepared format first call workspace expected) := by
  intro before after holds others
  cases call with
  | update edit =>
    obtain ⟨loaded, version, edited, revision⟩ := holds
    exact ⟨loaded, version_stable id loaded version others, edited, revision⟩
  | save saved revision => exact holds

/-- The lock is held, the file still holds `content`, and nothing is stored yet. -/
structure Holding (format : Format) (first : Option String) (id : κ) (call : Call)
    (workspace : Workspace) (expected : Nat) (content : Option String → Prop)
    (directory : Directory κ) : Prop where
  lock : directory.lock = some id
  content : content (directory.files .workspace)
  absent : Absent id directory.log
  prepared : Prepared format first call workspace expected directory

theorem holding_stable (id : κ) (call : Call) (workspace : Workspace) (expected : Nat)
    (content : Option String → Prop) :
    Stable (Others format first id)
      (Holding format first id call workspace expected content) := by
  intro before after holds others
  obtain ⟨lock, file, log⟩ := (others_keep others).1 holds.lock
  exact ⟨lock, file ▸ holds.content, absent_stable id holds.absent others,
    prepared_stable id call workspace expected holds.prepared others⟩

/-! ## The programs -/

/-- The steps a call with this id and call may take. -/
abbrev Allowed (format : Format) (first : Option String) (id : κ) (call : Call) :
    Directory κ → Directory κ → Prop :=
  fun before after => Consistent format first before → Change format first id call before after

/-- Nothing is known of a failed call. -/
abbrev lost : String → Directory κ → Prop := fun _ _ => True

/-- From `pre` the program of a call returns with `post`. -/
abbrev Does {α : Type} (format : Format) (first : Option String) (id : κ) (call : Call)
    (pre : Directory κ → Prop) (program : Step κ α) (post : α → Directory κ → Prop) : Prop :=
  Triple (Allowed format first id call) (Others format first id) pre program post lost

theorem lost_stable (id : κ) (error : String) : Stable (Others format first id) (lost error) :=
  fun _ _ _ _ => trivial

theorem allowed_same (id : κ) (call : Call) (directory : Directory κ) :
    Allowed format first id call directory directory :=
  fun _ => .quiet rfl rfl rfl

section Steps

variable {id : κ} {call : Call} {pre : Directory κ → Prop}

theorem access_does {α : Type} {run : Directory κ → Directory κ × Result α}
    {post : α → Directory κ → Prop} (before : Stable (Others format first id) pre)
    (after : ∀ value, Stable (Others format first id) (post value))
    (each : ∀ directory, pre directory →
      Allowed format first id call directory (run directory).1 ∧
      Ends post lost (run directory).2 (run directory).1) :
    Does format first id call pre (Store.access run) post := by
  refine Triple.action before after (lost_stable id) ?_
  intro directory io last result holds ran
  cases io with
  | ok value =>
    obtain ⟨rfl, rfl⟩ : (run directory).1 = last ∧ (run directory).2 = result := by
      simpa [Prod.ext_iff] using ran
    exact each directory holds
  | error error =>
    obtain ⟨rfl, rfl⟩ : directory = last ∧ .error error = result := by simpa using ran
    exact ⟨allowed_same id call directory, trivial⟩

/-- A read of the directory. -/
theorem read_does {α : Type} {find : Directory κ → Result α} {post : α → Directory κ → Prop}
    (before : Stable (Others format first id) pre)
    (after : ∀ value, Stable (Others format first id) (post value))
    (each : ∀ directory, pre directory → ∀ value, find directory = .ok value →
      post value directory) :
    Does format first id call pre (Store.access fun directory => (directory, find directory))
      post := by
  refine access_does before after fun directory holds => ⟨allowed_same id call directory, ?_⟩
  cases found : find directory with
  | ok value => exact each directory holds value found
  | error error => trivial

theorem unseen_does (stable : Stable (Others format first id) pre) :
    Does format first id call pre Store.unseen fun _ => pre :=
  access_does stable (fun _ => stable) fun directory holds =>
    ⟨allowed_same id call directory, holds⟩

theorem fileExists_does (file : ConfigFile) (stable : Stable (Others format first id) pre) :
    Does format first id call pre (Store.fileExists file) fun _ => pre := by
  refine Triple.action stable (fun _ => stable) (lost_stable id) ?_
  intro directory io last result holds ran
  obtain ⟨rfl, rfl⟩ : directory = last ∧ _ = result := by simpa using ran
  exact ⟨allowed_same id call directory, holds⟩

/-- A fallible function of values. -/
theorem lift_does {α : Type} {result : Result α} (stable : Stable (Others format first id) pre) :
    Does format first id call pre (liftM result)
      fun value directory => result = .ok value ∧ pre directory :=
  Triple.lift (lost_stable id) (fun _ same _ holds => ⟨same, holds⟩)
    (fun _ _ => (Stable.const _).and stable) fun _ _ _ => trivial

/-- Writing a file atomically is one change, its rename. -/
theorem atomicWrite_does {file : ConfigFile} {text : String}
    {entry : Option (Replacement κ Workspace)} {post : Directory κ → Prop}
    (before : Stable (Others format first id) pre) (after : Stable (Others format first id) post)
    (each : ∀ directory, pre directory →
      Allowed format first id call directory (Store.rename file text entry directory) ∧
      post (Store.rename file text entry directory)) :
    Does format first id call pre (Store.atomicWrite file text entry) fun _ => post := by
  refine (unseen_does before).bind fun _ => ?_
  refine (unseen_does before).bind fun _ => ?_
  refine (unseen_does before).bind fun _ => ?_
  refine (unseen_does before).bind fun _ => ?_
  exact (access_does before (fun _ => after) each).bind fun _ => unseen_does after

section Holding

variable {workspace : Workspace} {expected : Nat} {content : Option String → Prop}

/-- A copy of the workspace file is none of its readers' business. -/
theorem copy_does {file : ConfigFile} (other : file ≠ .workspace) (text : String) :
    Does format first id call (Holding format first id call workspace expected content)
      (Store.atomicWrite file text none)
      fun _ => Holding format first id call workspace expected content := by
  have same : ∀ directory : Directory κ,
      (Store.rename file text none directory).files .workspace = directory.files .workspace :=
    fun directory => by simp [Store.rename, Function.update_of_ne other.symm]
  refine atomicWrite_does (holding_stable ..) (holding_stable ..) fun directory holds => ?_
  refine ⟨fun _ => .quiet rfl (same directory) rfl, holds.lock, ?_, holds.absent, holds.prepared⟩
  rw [same]
  exact holds.content

theorem backup_does (previous stamped : Workspace) :
    Does format first id call (Holding format first id call workspace expected content)
      (Store.backup previous stamped)
      fun _ => Holding format first id call workspace expected content := by
  have stable : Stable (Others format first id)
      (Holding format first id call workspace expected content) := holding_stable ..
  have skip : Does format first id call (Holding format first id call workspace expected content)
      (pure ()) fun _ => Holding format first id call workspace expected content :=
    Triple.value stable fun _ holds => holds
  refine (fileExists_does .workspace stable).bind fun present => ?_
  refine Triple.branch (fun _ => ?_) fun _ => skip
  refine (read_does stable (fun _ => stable) fun _ holds _ _ => holds).bind fun old => ?_
  refine ((lift_does stable).consequence (fun _ holds => holds) (fun _ _ kept => kept.2)
    fun _ _ same => same).bind fun text => ?_
  have last : Does format first id call (Holding format first id call workspace expected content)
      (Store.atomicWrite .previous text none)
      fun _ => Holding format first id call workspace expected content := copy_does (by simp) text
  refine Triple.branch (fun _ => ?_) fun _ => last
  refine (fileExists_does (.migration previous.schema) stable).bind fun copied => ?_
  exact Triple.branch (fun _ => last) fun _ => (copy_does (by simp) text).bind fun _ => last

end Holding

/-- What `save` goes on to store passed the comparison of revisions. -/
theorem prepare_stamp {workspace previous stamped : Workspace} {expected : Nat} {text : String}
    (prepared : Store.prepare format workspace expected previous = .ok (stamped, text)) :
    previous.revision = expected ∧ stamped = workspace.stamp expected ∧
      format.encode stamped = .ok text := by
  rw [Store.prepare, bind_eq_ok] at prepared
  obtain ⟨_, compared, prepared⟩ := prepared
  obtain ⟨_, _, prepared⟩ := bind_eq_ok.mp prepared
  obtain ⟨revision, counted, prepared⟩ := bind_eq_ok.mp prepared
  obtain ⟨encoded, written, prepared⟩ := bind_eq_ok.mp prepared
  obtain ⟨_, _, returned⟩ := bind_eq_ok.mp prepared
  have next : revision = expected + 1 := by
    unfold Store.nextRevision at counted
    split at counted
    · exact (Except.ok.inj counted).symm
    · cases counted
  subst next
  cases returned
  exact ⟨by simpa using compared, rfl, written⟩

theorem saveLocked_does {workspace : Workspace} {expected : Nat} :
    Does format first id call (Holding format first id call workspace expected fun _ => True)
      (Store.saveLocked format id workspace expected) fun _ directory => Present id directory.log := by
  have holding : ∀ content, Stable (Others format first id)
      (Holding format first id call workspace expected content) := fun content => holding_stable ..
  -- From here on the file holds the definition that was compared.
  have load : Does format first id call
      (Holding format first id call workspace expected fun _ => True) (Store.load format)
      fun previous => Holding format first id call workspace expected
        fun content => Store.loadText format content = .ok previous := by
    refine read_does (holding _) (fun previous => holding _) fun directory holds previous loaded => ?_
    exact ⟨holds.lock, loaded, holds.absent, holds.prepared⟩
  refine load.bind fun previous => ?_
  refine (lift_does (holding _)).bind fun prepared => ?_
  intro directory holds
  obtain ⟨same, stamped, encoded⟩ := prepare_stamp holds.1
  refine ((backup_does previous prepared.1).bind fun _ => ?_) directory holds.2
  refine atomicWrite_does (holding _) (present_stable id) fun directory holds => ?_
  refine ⟨fun _ => ?_, ⟨id, previous, prepared.1⟩, by simp [Store.rename], rfl⟩
  exact .stored previous workspace expected prepared.2 holds.lock holds.content same holds.prepared
    holds.absent (stamped ▸ encoded) (by rw [stamped])

/-- A call before it takes the lock. -/
def Waiting (format : Format) (first : Option String) (id : κ) (call : Call)
    (workspace : Workspace) (expected : Nat) (directory : Directory κ) : Prop :=
  Absent id directory.log ∧ Prepared format first call workspace expected directory

theorem save_does {workspace : Workspace} {expected : Nat} :
    Does format first id call (Waiting format first id call workspace expected)
      (Store.save format id workspace expected) fun _ directory => Present id directory.log := by
  have stored : ∀ result : Result Unit,
      Stable (Others format first id) (Ends (fun _ directory => Present id directory.log) lost result) := by
    intro result
    cases result with
    | ok value => exact present_stable id
    | error error => exact lost_stable id error
  have acquire : Does format first id call (Waiting format first id call workspace expected)
      (Store.acquire id)
      fun _ => Holding format first id call workspace expected fun _ => True := by
    refine access_does ((absent_stable id).and (prepared_stable ..))
      (fun _ => holding_stable ..) fun directory holds => ?_
    cases free : directory.lock with
    | none => exact ⟨fun _ => .locked free rfl, rfl, trivial, holds.1, holds.2⟩
    | some other => exact ⟨allowed_same id call directory, trivial⟩
  refine acquire.bind fun _ => ?_
  refine saveLocked_does.attempt.bind fun outcome => ?_
  have unlock : Does format first id call (Ends (fun _ directory => Present id directory.log) lost outcome)
      (Store.unlock id) fun _ => Ends (fun _ directory => Present id directory.log) lost outcome := by
    refine Triple.action (stored outcome) (fun _ => stored outcome) (lost_stable id) ?_
    intro directory io last result holds ran
    obtain ⟨rfl, rfl⟩ : Store.release id directory = last ∧ _ = result := by simpa using ran
    refine ⟨fun _ => .unlocked rfl, ?_⟩
    have log : (Store.release id directory).log = directory.log := by
      unfold Store.release
      split <;> rfl
    cases outcome with
    | ok value => simpa [Ends, log] using holds
    | error error => trivial
  exact unlock.bind fun _ => Triple.done (stored outcome) fun _ holds => holds

theorem update_does (reads : ReadsBack format) (edit : Workspace → Result Workspace) :
    Does format first id (.update edit)
      (fun directory => Absent id directory.log ∧ Consistent format first directory)
      (Store.update format id edit) fun _ directory => Present id directory.log := by
  have consistent : Stable (Others format first id) (Consistent format first) := by
    intro before after holds others
    obtain ⟨_, other, _, acted⟩ := others
    cases acted with
    | inl changed =>
      obtain ⟨call, change⟩ := changed
      exact change_consistent reads holds change
    | inr died => exact died ▸ release_consistent other holds
  have known : ∀ workspace, Stable (Others format first id) fun directory =>
      Absent id directory.log ∧ Version (StartsAs format first) directory.log workspace :=
    fun workspace => (absent_stable id).and (version_stable id workspace)
  -- What is loaded is some version; only the lock tells whether it is still the current one.
  have load : Does format first id (.update edit)
      (fun directory => Absent id directory.log ∧ Consistent format first directory)
      (Store.load format) fun loaded directory =>
        Absent id directory.log ∧ Version (StartsAs format first) directory.log loaded := by
    refine read_does ((absent_stable id).and consistent) known
      fun directory holds loaded found => ?_
    exact ⟨holds.1, (loaded_current reads holds.2 found).version⟩
  refine load.bind fun loaded => ?_
  refine (lift_does (known loaded)).bind fun workspace => ?_
  refine save_does.consequence (fun directory holds => ?_) (fun _ _ kept => kept) fun _ _ same => same
  obtain ⟨edited, absent, version⟩ := holds
  exact ⟨absent, loaded, version, edited, rfl⟩

end Steps

/-- The proof outline of every call on the store. -/
def storeOutline (reads : ReadsBack format) (first : Option String) :
    (store (κ := κ) format).Outline where
  guarantee := Change format first
  inv := Consistent format first
  fresh id directory := Absent id directory.log
  post id _ := Ends (fun _ directory => Present id directory.log) lost
  inv_kept _ _ _ _ consistent change := change_consistent reads consistent change
  inv_buried id _ consistent := release_consistent id consistent
  fresh_kept id := absent_stable id
  safe id call directory consistent absent := by
    cases call with
    | update edit => exact update_does reads edit directory ⟨absent, consistent⟩
    | save workspace expected => exact save_does directory ⟨absent, rfl, rfl⟩

/-! ## Every run -/

/-- `after` is what the call made of `before`. -/
def Edited : Call → Workspace → Workspace → Prop
  | .update edit, before, after =>
    ∃ edited, edit before = .ok edited ∧ after = edited.stamp before.revision
  | .save workspace expected, before, after =>
    before.revision = expected ∧ after = workspace.stamp expected

/-- The stored definitions form one chain of the calls' edits. -/
structure SaveChain (format : Format) (first : Option String)
    (trace : List (ThreadEvent κ Call String Unit))
    (pool : Pool κ Call (Result Unit) (Directory κ) String Unit) : Prop where
  /-- Each call that stored a definition replaced the one stored immediately before. -/
  chained : Chained (StartsAs format first) pool.shared.log
  /-- What it stored is its edit of the definition it replaced. -/
  edited : ∀ entry ∈ pool.shared.log, ∃ call, pool.calls entry.writer = some call ∧
    Edited call entry.before entry.after
  revision : ∀ entry ∈ pool.shared.log, entry.after.revision = entry.before.revision + 1
  /-- Any definition ever stored with the revision of a replaced one is that one. -/
  unique : ∀ entry ∈ pool.shared.log, ∀ version,
    Version (StartsAs format first) pool.shared.log version →
    version.revision = entry.before.revision → version = entry.before
  /-- The file holds the last definition of the chain. -/
  file : Content format first pool.shared.log (pool.shared.files .workspace)
  once : (pool.shared.log.map (·.writer)).Nodup
  /-- A successful call is on the chain. -/
  successful : ∀ id, .finish id (.ok ()) ∈ trace → Present id pool.shared.log

/-- A step changes the workspace file only by adding the stepping writer's replacement of
    the definition that is stored. -/
def StaleWritersRefused (format : Format)
    (before : Pool κ Call (Result Unit) (Directory κ) String Unit)
    (event : ThreadEvent κ Call String Unit)
    (after : Pool κ Call (Result Unit) (Directory κ) String Unit) : Prop :=
  after.shared.files .workspace ≠ before.shared.files .workspace →
    ∃ entry : Replacement κ Workspace, event = .turn entry.writer ∧
      Store.loadText format (before.shared.files .workspace) = .ok entry.before ∧
      after.shared.log = entry :: before.shared.log

theorem release_log (id : κ) (directory : Directory κ) :
    (Store.release id directory).log = directory.log ∧
      (Store.release id directory).files = directory.files := by
  unfold Store.release
  split <;> exact ⟨rfl, rfl⟩

omit [DecidableEq κ] in
/-- A prepared definition whose revision is still stored is an edit of what is stored. -/
theorem prepared_edited (reads : ReadsBack format) {call : Call} {directory : Directory κ}
    (consistent : Consistent format first directory) {previous workspace : Workspace}
    {expected : Nat} (found : Store.loadText format (directory.files .workspace) = .ok previous)
    (same : previous.revision = expected)
    (prepared : Prepared format first call workspace expected directory) :
    Edited call previous (workspace.stamp expected) := by
  cases call with
  | update edit =>
    obtain ⟨loaded, version, edited, revision⟩ := prepared
    have current := (loaded_current reads consistent found).version
    obtain rfl : loaded = previous :=
      stored_unique consistent version current (revision.trans same.symm)
    exact ⟨workspace, edited, by rw [same]⟩
  | save saved revision =>
    obtain ⟨rfl, rfl⟩ := prepared
    exact ⟨same, rfl⟩

/-- A change of the directory leaves the file alone or logs the caller's edit of what was
    stored. -/
theorem change_log (reads : ReadsBack format) {id : κ} {call : Call} {before after : Directory κ}
    (consistent : Consistent format first before)
    (change : Change format first id call before after) :
    (after.log = before.log ∧ after.files .workspace = before.files .workspace) ∨
      ∃ entry : Replacement κ Workspace, entry.writer = id ∧ after.log = entry :: before.log ∧
        Edited call entry.before entry.after ∧
        Store.loadText format (before.files .workspace) = .ok entry.before := by
  cases change with
  | quiet lock file log => exact .inl ⟨log, file⟩
  | locked free result => exact .inl (by simp [result])
  | unlocked result =>
    obtain ⟨log, files⟩ := release_log id before
    exact .inl (by simp [result, log, files])
  | stored previous workspace expected text held found same prepared new encoded result =>
    exact .inr ⟨⟨id, previous, workspace.stamp expected⟩, rfl, by simp [result, Store.rename],
      prepared_edited reads consistent found same prepared, found⟩

theorem storeLogs (reads : ReadsBack format) :
    Logs (storeOutline (κ := κ) reads first) Directory.log Edited where
  change id call before after consistent change := by
    cases change_log reads consistent change with
    | inl same => exact .inl same.1
    | inr stored =>
      obtain ⟨entry, writer, log, edited, _⟩ := stored
      exact .inr ⟨entry, writer, log, edited⟩
  bury id before := (release_log id before).1
  post _ _ _ _ present := present

theorem stale_writers_refused (reads : ReadsBack format)
    {before after : Pool κ Call (Result Unit) (Directory κ) String Unit}
    {event : ThreadEvent κ Call String Unit} (consistent : Consistent format first before.shared)
    (took : (storeOutline reads first).Took before event after) :
    StaleWritersRefused format before event after := by
  intro changed
  cases took with
  | start same => simp [same] at changed
  | finish known same => simp [same] at changed
  | die known buried => simp [buried, store, (release_log _ _).2] at changed
  | turn known allowed =>
    cases change_log reads consistent allowed with
    | inl same => exact absurd same.2 changed
    | inr stored =>
      obtain ⟨entry, rfl, log, _, found⟩ := stored
      exact ⟨entry, rfl, found, log⟩

/-- A directory with this workspace file, before any call. -/
def Untouched (first : Option String) (directory : Directory κ) : Prop :=
  directory.files .workspace = first ∧ directory.lock = none ∧ directory.log = []

omit [DecidableEq κ] in
theorem untouched_holds {directory : Directory κ} (untouched : Untouched first directory) :
    Consistent format first directory ∧ ∀ id, Absent id directory.log := by
  obtain ⟨file, _, log⟩ := untouched
  refine ⟨⟨by simp [log, Chained], by simp [log], ?_, by simp [log]⟩, fun id => by simp [Absent, log]⟩
  rw [log]
  exact file

/-- Compare-and-swap on the workspace file: whatever calls interleave, fail or die, the stored
    definitions are one chain of edits, each of the definition stored immediately before. -/
theorem stored_definitions_form_chain (reads : ReadsBack format)
    {start pool : Pool κ Call (Result Unit) (Directory κ) String Unit}
    {trace : List (ThreadEvent κ Call String Unit)}
    (initial : ((store format).system (Untouched first)).init start)
    (run : ((store format).system (Untouched first)).Run start trace pool) :
    SaveChain format first trace pool ∧
      ∀ event after, ((store format).system (Untouched first)).step pool event after →
        StaleWritersRefused format pool event after := by
  obtain ⟨holds, edited, successful⟩ := (storeLogs reads).run
    (fun _ untouched => ⟨untouched_holds untouched, untouched.2.2⟩) initial run
  have consistent := holds.inv
  refine ⟨⟨consistent.chained, edited, consistent.raises, ?_, consistent.content,
    consistent.writers, fun id => successful id ()⟩, fun event after taken => ?_⟩
  · intro entry member version stored equal
    exact stored_unique consistent stored (consistent.chained.found_version member) equal
  · exact stale_writers_refused reads consistent
      ((storeOutline reads first).holds_step holds taken).2

/-! ## On a concrete store -/

/-- The default definition at a revision. -/
def sampleWorkspace (revision : Nat) : Workspace := { Workspace.default with revision }

/-- Its text. -/
def sampleText (revision : Nat) : String :=
  "schema = 3\nrevision = " ++ toString revision ++ "\nprojects = []\nrecent_projects = []\n"

/-- The format on the definitions that the sample runs store. -/
def sampleFormat : Format where
  encode workspace :=
    if workspace = sampleWorkspace 1 then .ok (sampleText 1)
    else if workspace = sampleWorkspace 2 then .ok (sampleText 2)
    else if workspace = sampleWorkspace 3 then .ok (sampleText 3)
    else .error "unsupported value"
  decode text :=
    if text = sampleText 1 then .ok (sampleWorkspace 1)
    else if text = sampleText 2 then .ok (sampleWorkspace 2)
    else if text = sampleText 3 then .ok (sampleWorkspace 3)
    else .error "invalid configuration (preserved; no reset performed)"
  validate _ := .ok ()

theorem sampleFormat_readsBack : ReadsBack sampleFormat := by
  have apart : sampleText 2 ≠ sampleText 1 ∧ sampleText 3 ≠ sampleText 1 ∧
      sampleText 3 ≠ sampleText 2 := by decide
  intro workspace text encoded
  simp only [sampleFormat] at encoded ⊢
  split at encoded
  · cases encoded
    simp_all
  · split at encoded
    · cases encoded
      simp_all
    · split at encoded
      · cases encoded
        simp_all
      · cases encoded

/-- A pool on an empty directory. -/
def samplePool : Pool Nat Call (Result Unit) (Directory Nat) String Unit where
  shared := { files := fun _ => none, lock := none, log := [] }
  calls _ := none
  threads _ := none

/-- Every access succeeds but the one with this number. -/
def failsAt (failing : Nat) (asked : Nat) : Result Unit :=
  if asked = failing then .error "Input/output error" else .ok ()

/-- An undisturbed save of the unchanged definition at `revision`. -/
def sampleSave (id revision failing : Nat) (directory : Directory Nat) :
    Option (Directory Nat × Result Unit) :=
  (Store.save sampleFormat id (sampleWorkspace revision) revision).alone (failsAt failing) 0 directory

/-- Three saves; the second one cannot sync the directory after its rename. -/
def sampleSaves : Option (Directory Nat × List (Result Unit)) := do
  let (directory, first) ← sampleSave 1 0 100 samplePool.shared
  let (directory, second) ← sampleSave 2 1 15 directory
  let (directory, third) ← sampleSave 3 2 100 directory
  pure (directory, [first, second, third])

theorem sampleSaves_log : sampleSaves.map (fun outcome => (outcome.1.log, outcome.2)) =
    some ([⟨3, sampleWorkspace 2, sampleWorkspace 3⟩, ⟨2, sampleWorkspace 1, sampleWorkspace 2⟩,
      ⟨1, sampleWorkspace 0, sampleWorkspace 1⟩],
      [.ok (), .error "Input/output error", .ok ()]) := by
  decide

/-- The calls that returned without an error. -/
def returned {κ : Type} [DecidableEq κ] (trace : List (ThreadEvent κ Call String Unit)) (id : κ) :
    Bool :=
  trace.any fun event =>
    match event with
    | .finish other (.ok ()) => other = id
    | _ => false

/-- The sample run as a run of the store. -/
theorem sample_run : ∃ trace pool, ((store sampleFormat).system (Untouched none)).Run samplePool
    trace pool ∧
    pool.shared.log = [⟨3, sampleWorkspace 2, sampleWorkspace 3⟩,
      ⟨2, sampleWorkspace 1, sampleWorkspace 2⟩, ⟨1, sampleWorkspace 0, sampleWorkspace 1⟩] ∧
    returned trace 1 = true ∧ returned trace 2 = false ∧ returned trace 3 = true := by
  have ran := sampleSaves_log
  simp only [sampleSaves, Option.map_eq_some_iff, Option.bind_eq_bind, Option.bind_eq_some_iff,
    Option.pure_def, Option.some.injEq] at ran
  obtain ⟨outcome, ⟨⟨one, first⟩, firstRan, ⟨two, second⟩, secondRan, ⟨three, third⟩, thirdRan, rfl⟩,
    same⟩ := ran
  simp only [Prod.mk.injEq, List.cons.injEq, and_true] at same
  obtain ⟨log, rfl, rfl, rfl⟩ := same
  let firstCall : Call := .save (sampleWorkspace 0) 0
  let secondCall : Call := .save (sampleWorkspace 1) 1
  obtain ⟨turns, run⟩ := Interleaving.calls_alone (store sampleFormat) (Untouched none)
    (failsAt 100) samplePool 1 firstCall rfl rfl firstRan
  obtain ⟨more, next⟩ := Interleaving.calls_alone (store sampleFormat) (Untouched none) (failsAt 15)
    { samplePool with
      shared := one
      calls := Function.update samplePool.calls 1 (some firstCall) }
    2 secondCall (by simp [samplePool]) rfl secondRan
  obtain ⟨rest, last⟩ := Interleaving.calls_alone (store sampleFormat) (Untouched none) (failsAt 100)
    { samplePool with
      shared := two
      calls := Function.update (Function.update samplePool.calls 1 (some firstCall)) 2
        (some secondCall) }
    3 (.save (sampleWorkspace 2) 2) (by simp [samplePool]) rfl thirdRan
  refine ⟨_, _, (run.trans next).trans last, log, ?_, ?_, ?_⟩ <;> simp [returned]

/-- A save may report a failure after its definition is stored, so that the definitions of the
    successful saves alone are not consecutive. -/
theorem failed_save_is_stored :
    ¬ ∀ (start pool : Pool Nat Call (Result Unit) (Directory Nat) String Unit) trace,
      ((store sampleFormat).system (Untouched none)).init start →
      ((store sampleFormat).system (Untouched none)).Run start trace pool →
      Chained (StartsAs sampleFormat none)
        (pool.shared.log.filter fun entry => returned trace entry.writer) := by
  intro claimed
  obtain ⟨trace, pool, run, log, first, second, third⟩ := sample_run
  have chained := claimed samplePool pool trace ⟨⟨rfl, rfl, rfl⟩, rfl, rfl⟩ run
  simp only [log, List.filter_cons, first, second, third] at chained
  have found : sampleWorkspace 2 = sampleWorkspace 1 := chained.1
  exact absurd found (by decide)

/-- The chain of the sample run. -/
theorem stored_definitions_form_chain_sample :
    ∃ trace pool, SaveChain sampleFormat none trace (pool : Pool Nat _ _ _ _ _) ∧
      pool.shared.log.map (·.after.revision) = [3, 2, 1] := by
  obtain ⟨trace, pool, run, log, _⟩ := sample_run
  have initial : ((store sampleFormat).system (Untouched none)).init samplePool :=
    ⟨⟨rfl, rfl, rfl⟩, rfl, rfl⟩
  exact ⟨trace, pool, (stored_definitions_form_chain sampleFormat_readsBack initial run).1,
    by simp [log, sampleWorkspace]⟩

end Idk.Verified.Store
