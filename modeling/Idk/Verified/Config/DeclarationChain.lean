import Idk.Config.Declaration

/-!
# Writes of a declaration form a chain

A writer that expects a content publishes only while its own descriptor holds the lock
of the inode that the path names, so that no other writer can publish in between,
whatever data directory it uses; a writer that expects no file publishes with an
operation that fails when there is one.  Every publication therefore replaces
exactly the content its writer expected.
-/

namespace Idk.Verified.Declaration

open Idk.Logic Idk.Config
open Idk.Logic.Program (Safe Stable Triple Ends)

variable {κ δ : Type}

/-- The publication of a call's draft is what the call asked for. -/
structure Asked (format : DeclarationFormat) (call : WriteDeclaration δ)
    (before after : Option Bytes) : Prop where
  expected : before.map format.digest = call.expectedDigest
  draft : after = some call.draft

variable [DecidableEq κ]

/-- What one action of a call may do. -/
inductive Change (format : DeclarationFormat) (id : κ) (call : WriteDeclaration δ)
    (before after : Disk κ δ) : Prop where
  | quiet (named : after.named = before.named) (content : after.content = before.content)
      (flocks : after.flocks = before.flocks) (temporary : after.temporary = before.temporary)
      (log : after.log = before.log)
  | locked (inode : Nat) (free : before.flocks inode = none)
      (result : after = { before with flocks := Function.update before.flocks inode (some id) })
  | created (inode : Nat) (free : before.inUse inode = false)
      (result : after = { before with temporary := (id, inode) :: before.temporary })
  | wrote (inode : Nat) (draft : Bytes) (own : (id, inode) ∈ before.temporary)
      (result : after = { before with content := Function.update before.content inode draft })
  | discarded (result : after = before.discard id)
  | closed (result : after = before.close id)
  | published (inode : Nat) (own : (id, inode) ∈ before.temporary)
      (draft : before.content inode = call.draft) (new : Absent id before.log)
      (grounds : (call.expectedDigest = none ∧ before.named = none) ∨
        ∃ held, before.named = some held ∧ before.flocks held = some id ∧
          call.expectedDigest = some (format.digest (before.content held)))
      (result : after = before.publish id inode)

/-! ## The invariant of the file system -/

omit [DecidableEq κ] in
/-- `first` is what the path held at the beginning. -/
structure Consistent (first : Option Bytes) (disk : Disk κ δ) : Prop where
  chained : Chained (· = first) disk.log
  current : Current (· = first) disk.log disk.current
  writers : (disk.log.map (·.writer)).Nodup
  /-- A temporary file is known to its writer only. -/
  apart : ∀ id inode, (id, inode) ∈ disk.temporary → disk.named ≠ some inode ∧
    ∀ other, (other, inode) ∈ disk.temporary → other = id

variable {first : Option Bytes} {format : DeclarationFormat}

omit [DecidableEq κ] in
theorem Consistent.congr {before after : Disk κ δ} (consistent : Consistent first before)
    (named : after.named = before.named) (current : after.current = before.current)
    (log : after.log = before.log)
    (temporary : ∀ entry ∈ after.temporary, entry ∈ before.temporary) :
    Consistent first after := by
  refine ⟨log ▸ consistent.chained, ?_, log ▸ consistent.writers, ?_⟩
  · rw [log, current]
    exact consistent.current
  · intro id inode member
    obtain ⟨unnamed, own⟩ := consistent.apart id inode (temporary _ member)
    exact ⟨named ▸ unnamed, fun other shared => own other (temporary _ shared)⟩

omit [DecidableEq κ] in
theorem unused_inode {disk : Disk κ δ} {inode : Nat} (free : disk.inUse inode = false) :
    disk.named ≠ some inode ∧ ∀ id, (id, inode) ∉ disk.temporary := by
  simp only [Disk.inUse, Bool.or_eq_false_iff, beq_eq_false_iff_ne, List.any_eq_false] at free
  exact ⟨free.1.1, fun id member => by simpa using free.2 (id, inode) member⟩

omit [DecidableEq κ] in
/-- What a writer's grounds say of the content it replaces. -/
theorem grounds_expected {id : κ} {call : WriteDeclaration δ} {disk : Disk κ δ}
    (grounds : (call.expectedDigest = none ∧ disk.named = none) ∨
      ∃ held, disk.named = some held ∧ disk.flocks held = some id ∧
        call.expectedDigest = some (format.digest (disk.content held))) :
    disk.current.map format.digest = call.expectedDigest := by
  cases grounds with
  | inl missing => simp [Disk.current, missing]
  | inr found =>
    obtain ⟨held, named, _, expected⟩ := found
    simp [Disk.current, named, expected]

omit [DecidableEq κ] in
/-- A temporary file is not what a reader of the path finds. -/
theorem wrote_current {id : κ} {disk : Disk κ δ} (consistent : Consistent first disk) {inode : Nat}
    (own : (id, inode) ∈ disk.temporary) (draft : Bytes) :
    { disk with content := Function.update disk.content inode draft }.current = disk.current := by
  have unnamed := (consistent.apart id inode own).1
  cases named : disk.named with
  | none => simp [Disk.current, named]
  | some file =>
    have different : file ≠ inode := fun same => unnamed (same ▸ named)
    simp [Disk.current, named, Function.update_of_ne different]

theorem change_consistent {id : κ} {call : WriteDeclaration δ} {before after : Disk κ δ}
    (consistent : Consistent first before) (change : Change format id call before after) :
    Consistent first after := by
  cases change with
  | quiet named content flocks temporary log =>
    exact consistent.congr named (by simp [Disk.current, named, content]) log
      fun entry member => temporary ▸ member
  | locked inode free result =>
    subst result
    exact consistent.congr rfl rfl rfl fun _ member => member
  | created inode free result =>
    subst result
    obtain ⟨unnamed, unshared⟩ := unused_inode free
    refine ⟨consistent.chained, consistent.current, consistent.writers, fun owner file member => ?_⟩
    cases List.mem_cons.mp member with
    | inl newest =>
      cases newest
      refine ⟨unnamed, fun other shared => ?_⟩
      cases List.mem_cons.mp shared with
      | inl same => exact congrArg Prod.fst same
      | inr older => exact absurd older (unshared other)
    | inr older =>
      obtain ⟨apart, own⟩ := consistent.apart owner file older
      refine ⟨apart, fun other shared => ?_⟩
      cases List.mem_cons.mp shared with
      | inl same =>
        cases same
        exact absurd older (unshared owner)
      | inr old => exact own other old
  | wrote inode draft own result =>
    subst result
    exact consistent.congr rfl (wrote_current consistent own draft) rfl fun _ member => member
  | discarded result =>
    subst result
    exact consistent.congr rfl rfl rfl fun _ member => (List.mem_filter.mp member).1
  | closed result =>
    subst result
    exact consistent.congr rfl rfl rfl fun _ member => member
  | published inode own draft new grounds result =>
    subst result
    refine ⟨⟨consistent.current, consistent.chained⟩, ?_,
      List.nodup_cons.mpr ⟨new, consistent.writers⟩, ?_⟩
    · simp [Current, Disk.publish, Disk.current, Disk.discard]
    · intro owner file member
      obtain ⟨kept, notMine⟩ := List.mem_filter.mp member
      obtain ⟨_, alone⟩ := consistent.apart owner file kept
      refine ⟨fun same => ?_, fun other shared => alone other (List.mem_filter.mp shared).1⟩
      cases same
      simp [alone id own] at notMine

theorem bury_consistent (id : κ) {disk : Disk κ δ} (consistent : Consistent first disk) :
    Consistent first (disk.bury id) :=
  consistent.congr rfl rfl rfl fun _ member => member

/-! ## What the others cannot invalidate -/

variable [DecidableEq δ]

abbrev Others (format : DeclarationFormat) (first : Option Bytes) (id : κ) :
    Disk κ δ → Disk κ δ → Prop :=
  fun before after => Consistent first before ∧
    (declaration format).others (Change format) id before after

/-- What stays for `id` while others act: its lock, the name and content of the inode it has
    locked, and its temporary file. -/
structure Kept (id : κ) (before after : Disk κ δ) : Prop where
  flocks : ∀ inode, before.flocks inode = some id → after.flocks inode = some id
  named : ∀ inode, before.flocks inode = some id → before.named = some inode →
    after.named = some inode ∧ after.content inode = before.content inode
  temporary : ∀ inode, (id, inode) ∈ before.temporary → (id, inode) ∈ after.temporary ∧
    after.content inode = before.content inode
  log : Extended id before.log after.log

omit [DecidableEq δ] in
theorem close_kept {id other : κ} (different : other ≠ id) (disk : Disk κ δ) :
    Kept id disk (disk.close other) := by
  refine ⟨fun inode held => ?_, fun inode _ named => ⟨named, rfl⟩, fun inode own => ⟨own, rfl⟩,
    .inl rfl⟩
  have apart : disk.flocks inode ≠ some other := fun same =>
    different (Option.some.inj (same.symm.trans held))
  simpa [Disk.close, apart] using held

theorem others_keep {id : κ} {before after : Disk κ δ}
    (others : Others format first id before after) : Kept id before after := by
  obtain ⟨consistent, other, different, acted⟩ := others
  cases acted with
  | inr died =>
    subst died
    obtain ⟨flocks, named, temporary, log⟩ := close_kept different before
    exact ⟨flocks, named, temporary, log⟩
  | inl changed =>
    obtain ⟨call, change⟩ := changed
    cases change with
    | quiet named content flocks temporary log =>
      exact ⟨fun inode held => flocks ▸ held, fun inode _ same => ⟨named ▸ same, by rw [content]⟩,
        fun inode own => ⟨temporary ▸ own, by rw [content]⟩, .inl log⟩
    | locked inode free result =>
      subst result
      refine ⟨fun file held => ?_, fun file _ same => ⟨same, rfl⟩, fun file own => ⟨own, rfl⟩, .inl rfl⟩
      have apart : file ≠ inode := fun same => by simp [same, free] at held
      simpa [Function.update_of_ne apart] using held
    | created inode free result =>
      subst result
      exact ⟨fun _ held => held, fun _ _ same => ⟨same, rfl⟩,
        fun _ own => ⟨List.mem_cons_of_mem _ own, rfl⟩, .inl rfl⟩
    | wrote inode draft own result =>
      subst result
      obtain ⟨unnamed, alone⟩ := consistent.apart other inode own
      refine ⟨fun _ held => held, fun file _ same => ⟨same, ?_⟩, fun file mine => ⟨mine, ?_⟩, .inl rfl⟩
      · have apart : file ≠ inode := fun equal => unnamed (equal ▸ same)
        simp [Function.update_of_ne apart]
      · have apart : file ≠ inode := fun equal => different (alone id (equal ▸ mine)).symm
        simp [Function.update_of_ne apart]
    | discarded result =>
      subst result
      refine ⟨fun _ held => held, fun _ _ same => ⟨same, rfl⟩, fun inode own => ⟨?_, rfl⟩, .inl rfl⟩
      simpa [Disk.discard, different.symm] using own
    | closed result => exact result ▸ close_kept different before
    | published inode own draft new grounds result =>
      subst result
      refine ⟨fun _ held => held, fun file held same => ?_, fun file mine => ⟨?_, rfl⟩,
        .inr ⟨⟨other, before.current, some (before.content inode)⟩, different, rfl⟩⟩
      · -- The lock of the named inode is mine, so the other had no grounds to publish.
        cases grounds with
        | inl missing => simp [missing.2] at same
        | inr found =>
          obtain ⟨taken, named, locked, _⟩ := found
          obtain rfl : taken = file := Option.some.inj (named.symm.trans same)
          exact absurd (Option.some.inj (locked.symm.trans held)) different
      · simpa [Disk.publish, Disk.discard, different.symm] using mine

theorem absent_stable (id : κ) :
    Stable (Others (δ := δ) format first id) fun disk => Absent id disk.log :=
  fun _ _ holds others => (others_keep others).log.absent holds

theorem present_stable (id : κ) :
    Stable (Others (δ := δ) format first id) fun disk => Present id disk.log :=
  fun _ _ holds others => (others_keep others).log.present holds

/-- A call that has not published and whose descriptor, if it has one, holds its lock. -/
structure Guarded (id : κ) (manifest : Option Nat) (disk : Disk κ δ) : Prop where
  absent : Absent id disk.log
  locked : ∀ held, manifest = some held → disk.flocks held = some id

/-- The path still names the descriptor's inode. -/
def Named (manifest : Option Nat) (disk : Disk κ δ) : Prop :=
  ∀ held, manifest = some held → disk.named = some held

/-- The descriptor's inode has the expected content. -/
def Matches (format : DeclarationFormat) (manifest : Option Nat) (expected : Option String)
    (disk : Disk κ δ) : Prop :=
  ∀ held, manifest = some held → disk.named = some held ∧
    expected = some (format.digest (disk.content held))

/-- The call's temporary file, once it is written. -/
def Draft (id : κ) (inode : Nat) (draft : Bytes) (disk : Disk κ δ) : Prop :=
  (id, inode) ∈ disk.temporary ∧ disk.content inode = draft

section Stability

variable {id : κ} {manifest : Option Nat}

theorem guarded_stable : Stable (Others (δ := δ) format first id) (Guarded id manifest) := by
  intro before after holds others
  have kept := others_keep others
  exact ⟨kept.log.absent holds.absent, fun held same => kept.flocks held (holds.locked held same)⟩

theorem named_stable : Stable (Others (δ := δ) format first id)
    fun disk => Guarded id manifest disk ∧ Named manifest disk := by
  intro before after holds others
  refine ⟨guarded_stable holds.1 others, fun held same => ?_⟩
  exact ((others_keep others).named held (holds.1.locked held same) (holds.2 held same)).1

theorem matches_stable {expected : Option String} : Stable (Others (δ := δ) format first id)
    fun disk => Guarded id manifest disk ∧ Matches format manifest expected disk := by
  intro before after holds others
  refine ⟨guarded_stable holds.1 others, fun held same => ?_⟩
  obtain ⟨named, digest⟩ := holds.2 held same
  obtain ⟨still, content⟩ := (others_keep others).named held (holds.1.locked held same) named
  exact ⟨still, content ▸ digest⟩

theorem draft_stable {inode : Nat} {draft : Bytes} :
    Stable (Others (δ := δ) format first id) (Draft id inode draft) := by
  intro before after holds others
  obtain ⟨own, content⟩ := (others_keep others).temporary inode holds.1
  exact ⟨own, content.trans holds.2⟩

end Stability

/-! ## The programs -/

abbrev Allowed (format : DeclarationFormat) (first : Option Bytes) (id : κ)
    (call : WriteDeclaration δ) : Disk κ δ → Disk κ δ → Prop :=
  fun before after => Consistent first before → Change format id call before after

/-- Nothing is known of a failed call. -/
abbrev lost : String → Disk κ δ → Prop := fun _ _ => True

/-- From `pre` the program of a call returns with `post`. -/
abbrev Does {α : Type} (format : DeclarationFormat) (first : Option Bytes) (id : κ)
    (call : WriteDeclaration δ) (pre : Disk κ δ → Prop) (program : Declaration.Step κ δ α)
    (post : α → Disk κ δ → Prop) : Prop :=
  Triple (Allowed format first id call) (Others format first id) pre program post lost

theorem lost_stable (id : κ) (error : String) :
    Stable (Others (δ := δ) format first id) (lost error) :=
  fun _ _ _ _ => trivial

omit [DecidableEq δ] in
theorem allowed_same (id : κ) (call : WriteDeclaration δ) (disk : Disk κ δ) :
    Allowed format first id call disk disk :=
  fun _ => .quiet rfl rfl rfl rfl rfl

section Steps

variable {id : κ} {call : WriteDeclaration δ} {pre : Disk κ δ → Prop}

theorem access_does {α : Type} {run : Disk κ δ → Disk κ δ × Result α}
    {post : α → Disk κ δ → Prop} (before : Stable (Others format first id) pre)
    (after : ∀ value, Stable (Others format first id) (post value))
    (each : ∀ disk, pre disk → Allowed format first id call disk (run disk).1 ∧
      Ends post lost (run disk).2 (run disk).1) :
    Does format first id call pre (Declaration.access run) post := by
  refine Triple.action before after (lost_stable id) ?_
  intro disk answer last result holds ran
  cases io : answer.io with
  | ok value =>
    obtain ⟨rfl, rfl⟩ : (run disk).1 = last ∧ (run disk).2 = result := by
      simpa [io, Prod.ext_iff] using ran
    exact each disk holds
  | error error =>
    obtain ⟨rfl, rfl⟩ : disk = last ∧ .error error = result := by simpa [io] using ran
    exact ⟨allowed_same id call disk, trivial⟩

theorem unseen_does (stable : Stable (Others format first id) pre) :
    Does format first id call pre Declaration.unseen fun _ => pre :=
  access_does stable (fun _ => stable) fun disk holds => ⟨allowed_same id call disk, holds⟩

/-- A fallible function of values. -/
theorem lift_does {α : Type} {result : Result α} (stable : Stable (Others format first id) pre) :
    Does format first id call pre (liftM result) fun value disk => result = .ok value ∧ pre disk :=
  Triple.lift (lost_stable id) (fun _ same _ holds => ⟨same, holds⟩)
    (fun _ _ => (Stable.const _).and stable) fun _ _ _ => trivial

theorem skip_does {post : Disk κ δ → Prop} (stable : Stable (Others format first id) post)
    (implies : ∀ disk, pre disk → post disk) :
    Does format first id call pre (pure ()) fun _ => post :=
  Triple.value stable implies

/-- The lock file of the data directory is no reason to publish. -/
theorem acquire_does (store : δ) (stable : Stable (Others format first id) pre)
    (blind : ∀ disk locks, pre disk → pre { disk with locks := locks }) :
    Does format first id call pre (Declaration.acquire id store) fun _ => pre := by
  refine access_does stable (fun _ => stable) fun disk holds => ?_
  cases disk.locks store with
  | none => exact ⟨fun _ => .quiet rfl rfl rfl rfl rfl, blind disk _ holds⟩
  | some other => exact ⟨allowed_same id call disk, trivial⟩

theorem openNamed_does :
    Does format first id call (fun disk => Absent id disk.log)
      (Declaration.access fun disk =>
        match disk.named with
        | some inode => ({ disk with opened := (id, inode) :: disk.opened }, .ok inode)
        | none => (disk, .error "declaration disappeared before edit"))
      fun _ disk => Absent id disk.log := by
  refine access_does (absent_stable id) (fun _ => absent_stable id) fun disk holds => ?_
  cases name : disk.named with
  | some inode => exact ⟨fun _ => .quiet name.symm rfl rfl rfl rfl, holds⟩
  | none => exact ⟨allowed_same id call disk, trivial⟩

theorem openManifest_does :
    Does format first id call (fun disk => Absent id disk.log) (Declaration.openManifest id)
      fun inode => Guarded id (some inode) := by
  have absent : Stable (Others (δ := δ) format first id) fun disk => Absent id disk.log :=
    absent_stable id
  refine openNamed_does.bind fun inode => ?_
  refine (unseen_does absent).bind fun _ => ?_
  refine access_does absent (fun _ => guarded_stable) fun disk holds => ?_
  cases free : disk.flocks inode with
  | none =>
    refine ⟨fun _ => .locked inode free rfl, holds, fun held same => ?_⟩
    cases same
    simp
  | some other => exact ⟨allowed_same id call disk, trivial⟩

section Check

variable {manifest : Option Nat} {expected : Option String} {extra : Disk κ δ → Prop}

/-- Both content checks: what passes holds until the call itself publishes. -/
theorem check_does (stable : Stable (Others format first id) extra) :
    Does format first id call (fun disk => Guarded id manifest disk ∧ extra disk)
      (Declaration.check format manifest expected) fun _ disk =>
        (Guarded id manifest disk ∧ Matches format manifest expected disk) ∧ extra disk := by
  have start : Stable (Others format first id)
      fun disk => Guarded id manifest disk ∧ extra disk := guarded_stable.and stable
  have named : Stable (Others format first id)
      fun disk => (Guarded id manifest disk ∧ Named manifest disk) ∧ extra disk :=
    named_stable.and stable
  -- The content that is read is that of the descriptor's inode.
  have found : ∀ current : Option Bytes, Stable (Others format first id) fun disk =>
      (Guarded id manifest disk ∧ ∀ held, manifest = some held → disk.named = some held ∧
        current = some (disk.content held)) ∧ extra disk := by
    intro current before after holds others
    refine ⟨⟨guarded_stable holds.1.1 others, fun held same => ?_⟩, stable holds.2 others⟩
    obtain ⟨name, content⟩ := holds.1.2 held same
    obtain ⟨still, unchanged⟩ :=
      (others_keep others).named held (holds.1.1.locked held same) name
    exact ⟨still, unchanged ▸ content⟩
  have compare : Does format first id call
      (fun disk => (Guarded id manifest disk ∧ Named manifest disk) ∧ extra disk)
      (do
        let current ← Declaration.readBytes
        (ensure (current.map format.digest == expected)
          "idk.toml changed externally; original and draft preserved" : Result Unit))
      fun _ disk => (Guarded id manifest disk ∧ Matches format manifest expected disk) ∧
        extra disk := by
    have read : Does format first id call
        (fun disk => (Guarded id manifest disk ∧ Named manifest disk) ∧ extra disk)
        Declaration.readBytes fun current disk =>
          (Guarded id manifest disk ∧ ∀ held, manifest = some held → disk.named = some held ∧
            current = some (disk.content held)) ∧ extra disk := by
      refine access_does named found fun disk holds => ⟨allowed_same id call disk, ?_⟩
      simp only [ensure]
      split
      · refine ⟨⟨holds.1.1, fun held same => ?_⟩, holds.2⟩
        have name := holds.1.2 held same
        exact ⟨name, by simp [Disk.current, name]⟩
      · trivial
    refine read.bind fun current => ?_
    refine Triple.lift (lost_stable id) (fun value same disk holds => ?_)
      (fun _ _ => matches_stable.and stable) fun _ _ _ => trivial
    refine ⟨⟨holds.1.1, fun held mine => ?_⟩, holds.2⟩
    obtain ⟨name, content⟩ := holds.1.2 held mine
    have digest : current.map format.digest = expected := by simpa using same
    exact ⟨name, by simpa [content] using digest.symm⟩
  cases manifest with
  | none =>
    exact compare.consequence (fun _ holds => ⟨⟨holds.1, fun held same => by cases same⟩, holds.2⟩)
      (fun _ _ kept => kept) fun _ _ same => same
  | some held =>
    refine Triple.bind (access_does start (fun _ => named) fun disk holds => ?_) fun _ => compare
    cases name : disk.named with
    | none => exact ⟨allowed_same id call disk, trivial⟩
    | some inode =>
      refine ⟨allowed_same id call disk, ?_⟩
      simp only [ensure]
      split
      · rename_i same
        refine ⟨⟨holds.1, fun other mine => ?_⟩, holds.2⟩
        cases mine
        rw [name, beq_iff_eq.mp same]
      · trivial

end Check

/-! ### Publication -/

omit [DecidableEq δ] in
/-- `id` has published its draft. -/
theorem published_present {inode : Nat} (disk : Disk κ δ) :
    Present id (disk.publish id inode).log :=
  ⟨⟨id, disk.current, some (disk.content inode)⟩, by simp [Disk.publish], rfl⟩

theorem rename_does {manifest : Option Nat} {inode held : Nat} (opened : manifest = some held) :
    Does format first id call
      (fun disk => (Guarded id manifest disk ∧ Matches format manifest call.expectedDigest disk) ∧
        Draft id inode call.draft disk)
      (Declaration.rename id inode) fun _ disk => Present id disk.log := by
  refine access_does (matches_stable.and draft_stable) (fun _ => present_stable id)
    fun disk holds => ⟨fun _ => ?_, published_present disk⟩
  obtain ⟨⟨guarded, matched⟩, own, draft⟩ := holds
  obtain ⟨named, digest⟩ := matched held opened
  exact .published inode own draft guarded.absent
    (.inr ⟨held, named, guarded.locked held opened, digest⟩) rfl

theorem hardLink_does {manifest : Option Nat} {inode : Nat} (missing : call.expectedDigest = none) :
    Does format first id call
      (fun disk => (Guarded id manifest disk ∧ Matches format manifest call.expectedDigest disk) ∧
        Draft id inode call.draft disk)
      (Declaration.hardLink id inode) fun _ disk => Present id disk.log := by
  refine access_does (matches_stable.and draft_stable) (fun _ => present_stable id)
    fun disk holds => ?_
  obtain ⟨⟨guarded, matched⟩, own, draft⟩ := holds
  cases named : disk.named with
  | none =>
    exact ⟨fun _ => .published inode own draft guarded.absent (.inl ⟨missing, named⟩) rfl,
      published_present disk⟩
  | some other => exact ⟨allowed_same id call disk, trivial⟩

theorem create_does {manifest : Option Nat} :
    Does format first id call (Guarded id manifest) (Declaration.create id)
      fun inode disk => Guarded id manifest disk ∧ (id, inode) ∈ disk.temporary := by
  have after : ∀ inode, Stable (Others (δ := δ) format first id)
      fun disk => Guarded id manifest disk ∧ (id, inode) ∈ disk.temporary :=
    fun inode before after holds others => ⟨guarded_stable holds.1 others,
      ((others_keep others).temporary inode holds.2).1⟩
  refine Triple.action guarded_stable after (lost_stable id) ?_
  intro disk answer last result holds ran
  cases io : answer.io with
  | error error =>
    obtain ⟨rfl, rfl⟩ : disk = last ∧ .error error = result := by simpa [io] using ran
    exact ⟨allowed_same id call disk, trivial⟩
  | ok value =>
    simp only [io] at ran
    split at ran
    · cases ran
    · rename_i free
      cases ran
      exact ⟨fun _ => .created answer.inode (by simpa using free) rfl, ⟨holds.absent, holds.locked⟩,
        List.mem_cons_self⟩

theorem write_does {manifest : Option Nat} {inode : Nat} :
    Does format first id call
      (fun disk => Guarded id manifest disk ∧ (id, inode) ∈ disk.temporary)
      (Declaration.write inode call.draft)
      fun _ disk => Guarded id manifest disk ∧ Draft id inode call.draft disk := by
  refine access_does (fun before after holds others => ⟨guarded_stable holds.1 others,
    ((others_keep others).temporary inode holds.2).1⟩) (fun _ => guarded_stable.and draft_stable)
    fun disk holds => ⟨fun _ => .wrote inode call.draft holds.2 rfl, ?_⟩
  exact ⟨⟨holds.1.absent, holds.1.locked⟩, holds.2, by simp⟩

theorem replace_does {manifest : Option Nat}
    (same : manifest.isSome = call.expectedDigest.isSome) :
    Does format first id call (Guarded id manifest)
      (Declaration.replace format id manifest call.expectedDigest call.draft)
      fun _ disk => Present id disk.log := by
  refine create_does.bind fun inode => ?_
  have drafted : Stable (Others (δ := δ) format first id)
      fun disk => Guarded id manifest disk ∧ Draft id inode call.draft disk :=
    guarded_stable.and draft_stable
  have sync : Does format first id call (fun disk => Present id disk.log) Declaration.unseen
      fun _ disk => Present id disk.log := unseen_does (present_stable id)
  have publish : Does format first id call
      (fun disk => Guarded id manifest disk ∧ (id, inode) ∈ disk.temporary)
      (do
        Declaration.write inode call.draft
        Declaration.unseen
        Declaration.check format manifest call.expectedDigest
        if call.expectedDigest.isNone then
          Declaration.hardLink id inode
          Declaration.unseen
        else
          Declaration.rename id inode
        Declaration.unseen)
      fun _ disk => Present id disk.log := by
    refine write_does.bind fun _ => ?_
    refine (unseen_does drafted).bind fun _ => ?_
    refine (check_does draft_stable).bind fun _ => ?_
    refine Triple.branch (fun missing => ?_) fun expects => ?_
    · refine (hardLink_does (by simpa using missing)).bind fun _ => ?_
      exact sync.bind fun _ => sync
    · cases opened : manifest with
      | none => simp [opened] at same; simp [same] at expects
      | some held =>
        rw [← opened]
        exact (rename_does opened).bind fun _ => sync
  have opened : Stable (Others (δ := δ) format first id)
      fun disk => Guarded id manifest disk ∧ (id, inode) ∈ disk.temporary :=
    fun before after holds others => ⟨guarded_stable holds.1 others,
      ((others_keep others).temporary inode holds.2).1⟩
  exact Triple.branch (fun _ => (unseen_does opened).bind fun _ => publish) fun _ => publish

/-- A successful call has published and returns the digest of its draft. -/
def Finished (format : DeclarationFormat) (id : κ) (call : WriteDeclaration δ) (digest : String)
    (disk : Disk κ δ) : Prop :=
  Present id disk.log ∧ digest = format.digest call.draft

theorem finished_stable (digest : String) :
    Stable (Others format first id) (Finished format id call digest) :=
  (present_stable id).and (Stable.const _)

theorem ends_stable {α : Type} {post : α → Disk κ δ → Prop}
    (stable : ∀ value, Stable (Others format first id) (post value)) (result : Result α) :
    Stable (Others format first id) (Ends post lost result) := by
  cases result with
  | ok value => exact stable value
  | error error => exact lost_stable id error

theorem writeLocked_does :
    Does format first id call (fun disk => Absent id disk.log)
      (Declaration.writeLocked format id call.expectedDigest call.draft)
      (Finished format id call) := by
  have rest : ∀ manifest : Option Nat, manifest.isSome = call.expectedDigest.isSome →
      Does format first id call (Guarded id manifest)
        (do
          Declaration.check format manifest call.expectedDigest
          Declaration.unseen
          let result ← (Declaration.replace format id manifest call.expectedDigest
            call.draft).attempt
          if result.isOk = false then
            .action fun disk answer =>
              some (if answer.io.isOk then disk.discard id else disk, .ok ())
          .done (result.map fun _ => format.digest call.draft))
        (Finished format id call) := by
    intro manifest same
    have always : Stable (Others (δ := δ) format first id) fun _ => True := Stable.const True
    have check : Does format first id call (Guarded id manifest)
        (Declaration.check format manifest call.expectedDigest) fun _ => Guarded id manifest :=
      (check_does always).consequence (fun _ holds => ⟨holds, trivial⟩)
        (fun _ _ kept => kept.1.1) fun _ _ same => same
    refine check.bind fun _ => ?_
    refine (unseen_does guarded_stable).bind fun _ => ?_
    have replaced : Does format first id call (Guarded id manifest)
        (Declaration.replace format id manifest call.expectedDigest call.draft)
        fun _ disk => Present id disk.log := replace_does same
    refine replaced.attempt.bind fun result => ?_
    have stable : Stable (Others (δ := δ) format first id)
        (Ends (fun _ disk => Present id disk.log) lost result) :=
      ends_stable (fun _ => present_stable id) result
    have finish : Does format first id call
        (Ends (fun _ disk => Present id disk.log) lost result)
        (Program.done (result.map fun _ => format.digest call.draft))
        (Finished format id call) := by
      cases result with
      | ok value => exact Triple.done (finished_stable _) fun disk holds => ⟨holds, rfl⟩
      | error error => exact Triple.done (lost_stable id error) fun _ _ => trivial
    refine Triple.branch (fun failed => ?_) fun _ => finish
    -- Only a failed call removes its temporary file.
    refine Triple.bind (Triple.action stable (fun _ => stable) (lost_stable id) ?_) fun _ => finish
    intro disk answer last outcome holds ran
    cases result with
    | ok value => cases failed
    | error error =>
      obtain ⟨rfl, rfl⟩ : (if answer.io.isOk then disk.discard id else disk) = last ∧ _ = outcome := by
        simpa using ran
      refine ⟨fun _ => ?_, trivial⟩
      split
      · exact .discarded rfl
      · exact .quiet rfl rfl rfl rfl rfl
  refine Triple.branch (fun expects => ?_) fun missing => ?_
  · have opened : Does format first id call (fun disk => Absent id disk.log)
        (some <$> Declaration.openManifest id) fun manifest disk =>
          manifest.isSome = true ∧ Guarded id manifest disk :=
      openManifest_does.bind fun inode =>
        Triple.value ((Stable.const _).and guarded_stable) fun disk holds => ⟨rfl, holds⟩
    exact opened.bind fun manifest disk holds =>
      rest manifest (holds.1.trans expects.symm) disk holds.2
  · have unopened : Does format first id call (fun disk => Absent id disk.log) (pure none)
        fun manifest disk => manifest = none ∧ Guarded id manifest disk :=
      Triple.value ((Stable.const _).and guarded_stable)
        fun disk holds => ⟨rfl, holds, fun held same => by cases same⟩
    refine unopened.bind fun manifest disk holds => rest manifest ?_ disk holds.2
    rw [holds.1]
    simpa using missing

theorem writeDeclaration_does :
    Does format first id call (fun disk => Absent id disk.log)
      (Declaration.writeDeclaration format id call) (Finished format id call) := by
  have absent : Stable (Others (δ := δ) format first id) fun disk => Absent id disk.log :=
    absent_stable id
  have checked : ∀ {α : Type} (result : Result α), Does format first id call
      (fun disk => Absent id disk.log) (liftM result) fun _ disk => Absent id disk.log :=
    fun result => (lift_does absent).consequence (fun _ holds => holds) (fun _ _ kept => kept.2)
      fun _ _ same => same
  refine (checked _).bind fun _ => ?_
  refine (checked _).bind fun _ => ?_
  refine (checked _).bind fun _ => ?_
  refine (acquire_does call.store absent fun _ _ holds => holds).bind fun _ => ?_
  refine writeLocked_does.attempt.bind fun outcome => ?_
  have stable : Stable (Others format first id) (Ends (Finished format id call) lost outcome) :=
    ends_stable finished_stable outcome
  have kept : ∀ before after : Disk κ δ, after.log = before.log →
      Ends (Finished format id call) lost outcome before →
      Ends (Finished format id call) lost outcome after := by
    intro before after log holds
    cases outcome with
    | ok digest => exact ⟨log ▸ holds.1, holds.2⟩
    | error error => trivial
  have close : Does format first id call (Ends (Finished format id call) lost outcome)
      (.action fun disk _ => some (disk.close id, .ok ()))
      fun _ => Ends (Finished format id call) lost outcome := by
    refine Triple.action stable (fun _ => stable) (lost_stable id) ?_
    intro disk answer last result holds ran
    obtain ⟨rfl, rfl⟩ : disk.close id = last ∧ _ = result := by simpa using ran
    exact ⟨fun _ => .closed rfl, kept disk _ rfl holds⟩
  have unlock : Does format first id call (Ends (Finished format id call) lost outcome)
      (.action fun disk _ => some (disk.unlock id, .ok ()))
      fun _ => Ends (Finished format id call) lost outcome := by
    refine Triple.action stable (fun _ => stable) (lost_stable id) ?_
    intro disk answer last result holds ran
    obtain ⟨rfl, rfl⟩ : disk.unlock id = last ∧ _ = result := by simpa using ran
    exact ⟨fun _ => .quiet rfl rfl rfl rfl rfl, kept disk _ rfl holds⟩
  refine close.bind fun _ => ?_
  exact unlock.bind fun _ => Triple.done stable fun _ holds => holds

end Steps

/-- The proof outline of every writer. -/
def declarationOutline (format : DeclarationFormat) (first : Option Bytes) :
    (declaration (κ := κ) (δ := δ) format).Outline where
  guarantee := Change format
  inv := Consistent first
  fresh id disk := Absent id disk.log
  post id call := Ends (Finished format id call) lost
  inv_kept _ _ _ _ consistent change := change_consistent consistent change
  inv_buried id _ consistent := bury_consistent id consistent
  fresh_kept id := absent_stable id
  safe _ _ disk _ absent := writeDeclaration_does disk absent

/-! ## Every run -/

variable {before after : Pool κ (WriteDeclaration δ) DiskAnswer (Disk κ δ) String String}
  {event : ThreadEvent κ (WriteDeclaration δ) String String}

/-- The publications form one chain, and a successful call is one of them. -/
structure WriteChain (format : DeclarationFormat) (first : Option Bytes)
    (trace : List (ThreadEvent κ (WriteDeclaration δ) String String))
    (pool : Pool κ (WriteDeclaration δ) DiskAnswer (Disk κ δ) String String) : Prop where
  /-- Each publication replaced what the one immediately before had left. -/
  chained : Chained (· = first) pool.shared.log
  /-- It replaced exactly the content whose digest its writer supplied (no file when it
      supplied none) and left the writer's draft. -/
  asked : ∀ entry ∈ pool.shared.log, ∃ call, pool.calls entry.writer = some call ∧
    Asked format call entry.before entry.after
  /-- The path has the content of the last publication. -/
  current : Current (· = first) pool.shared.log pool.shared.current
  once : (pool.shared.log.map (·.writer)).Nodup
  successful : ∀ id digest, .finish id (.ok digest) ∈ trace → Present id pool.shared.log

/-- A step changes the content of the path only by the stepping writer's publication. -/
def StaleWritersRefused
    (before : Pool κ (WriteDeclaration δ) DiskAnswer (Disk κ δ) String String)
    (event : ThreadEvent κ (WriteDeclaration δ) String String)
    (after : Pool κ (WriteDeclaration δ) DiskAnswer (Disk κ δ) String String) : Prop :=
  after.shared.current ≠ before.shared.current →
    ∃ entry : Replacement κ (Option Bytes), event = .turn entry.writer ∧
      entry.before = before.shared.current ∧ after.shared.log = entry :: before.shared.log

omit [DecidableEq δ] in
/-- What one action does to the log and to the content of the path. -/
theorem change_log {id : κ} {call : WriteDeclaration δ} {before after : Disk κ δ}
    (consistent : Consistent first before) (change : Change format id call before after) :
    (after.log = before.log ∧ after.current = before.current) ∨
      ∃ inode, after.log = ⟨id, before.current, some (before.content inode)⟩ :: before.log ∧
        Asked format call before.current (some (before.content inode)) := by
  cases change with
  | quiet named content flocks temporary log =>
    exact .inl ⟨log, by simp [Disk.current, named, content]⟩
  | locked inode free result => exact .inl (by simp [result, Disk.current])
  | created inode free result => exact .inl (by simp [result, Disk.current])
  | wrote inode draft own result =>
    subst result
    exact .inl ⟨rfl, wrote_current consistent own draft⟩
  | discarded result => exact .inl (by simp [result, Disk.current, Disk.discard])
  | closed result => exact .inl (by simp [result, Disk.current, Disk.close])
  | published inode own draft new grounds result =>
    exact .inr ⟨inode, by simp [result, Disk.publish], grounds_expected grounds, by rw [draft]⟩

theorem declarationLogs :
    Logs (declarationOutline (κ := κ) (δ := δ) format first) Disk.log (Asked format) where
  change id call before after consistent change := by
    cases change_log consistent change with
    | inl same => exact .inl same.1
    | inr published =>
      obtain ⟨inode, log, asked⟩ := published
      exact .inr ⟨_, rfl, log, asked⟩
  bury _ _ := rfl
  post _ _ _ _ finished := finished.1

theorem stale_writers_refused (consistent : Consistent first before.shared)
    (took : (declarationOutline format first).Took before event after) :
    StaleWritersRefused before event after := by
  intro changed
  cases took with
  | start same => simp [same] at changed
  | finish known same => simp [same] at changed
  | die known buried => simp [buried, declaration, Disk.bury, Disk.close, Disk.unlock, Disk.current] at changed
  | turn known allowed =>
    cases change_log consistent allowed with
    | inl same => exact absurd same.2 changed
    | inr published =>
      obtain ⟨inode, log, _⟩ := published
      exact ⟨_, rfl, rfl, log⟩

/-- A file system where nobody writes the declaration yet. -/
structure Untouched (first : Option Bytes) (disk : Disk κ δ) : Prop where
  current : disk.current = first
  temporary : disk.temporary = []
  log : disk.log = []

omit [DecidableEq κ] [DecidableEq δ] in
theorem untouched_holds {disk : Disk κ δ} (untouched : Untouched first disk) :
    Consistent first disk ∧ ∀ id, Absent id disk.log := by
  obtain ⟨current, temporary, log⟩ := untouched
  refine ⟨⟨?_, ?_, ?_, ?_⟩, fun id => ?_⟩
  · simp [log, Chained]
  · simp [log, Current, current]
  · simp [log]
  · simp [temporary]
  · simp [Absent, log]

/-- Compare-and-swap on the declaration: whatever writers interleave, fail or die, in whatever
    data directories, each publication replaced exactly what its writer expected. -/
theorem declaration_writes_form_chain
    {start pool : Pool κ (WriteDeclaration δ) DiskAnswer (Disk κ δ) String String}
    {trace : List (ThreadEvent κ (WriteDeclaration δ) String String)}
    (initial : ((declaration format).system (Untouched first)).init start)
    (run : ((declaration format).system (Untouched first)).Run start trace pool) :
    WriteChain format first trace pool ∧
      ∀ event after, ((declaration format).system (Untouched first)).step pool event after →
        StaleWritersRefused pool event after := by
  obtain ⟨holds, asked, successful⟩ := declarationLogs.run
    (fun _ untouched => ⟨untouched_holds untouched, untouched.log⟩) initial run
  have consistent := holds.inv
  refine ⟨⟨consistent.chained, asked, consistent.current, consistent.writers, successful⟩,
    fun event after taken => ?_⟩
  exact stale_writers_refused consistent ((declarationOutline format first).holds_step holds taken).2

/-! ## On a concrete file -/

def ascii (text : String) : Bytes := text.toList.map fun char => UInt8.ofNat char.toNat

def sampleDraft : Bytes := ascii "schema_version = 1\n"

def sampleEdit : Bytes := ascii "schema_version = 1\nname = \"demo\"\n"

def sampleDigest : String := "4e1a53d3a13edf322c7d195c0bb546d0b29b969f74f6427a6edf05fa54ebafef"

/-- The parser and the digest on the two drafts. -/
def sampleFormat : DeclarationFormat where
  parse draft :=
    if draft = sampleDraft || draft = sampleEdit then .ok ()
    else .error "invalid idk.toml (original preserved)"
  digest content :=
    if content = sampleDraft then sampleDigest
    else "d0183abfa64965b41fe2dc24e75a3e8d97a4b6ecd68ac97705d0f2f909769e0a"

/-- A project without a declaration. -/
def samplePool : Pool Nat (WriteDeclaration String) DiskAnswer (Disk Nat String) String String where
  shared :=
    { named := none, content := fun _ => [], locks := fun _ => none, opened := []
      flocks := fun _ => none, temporary := [], log := [] }
  calls _ := none
  threads _ := none

def sampleAnswers (inode : Nat) : Nat → DiskAnswer := fun _ => ⟨.ok (), inode⟩

def sampleCreate : WriteDeclaration String :=
  ⟨"/data/one", ["/", "work", "demo", "idk.toml"], none, sampleDraft⟩

def sampleReplace : WriteDeclaration String :=
  ⟨"/data/two", ["/", "work", "demo", "idk.toml"], some sampleDigest, sampleEdit⟩

/-- One writer creates the declaration, another one edits it. -/
def sampleWrites : Option (Disk Nat String × List (Result String)) := do
  let (disk, first) ← ((declaration sampleFormat).code 1 sampleCreate).alone (sampleAnswers 11) 0
    samplePool.shared
  let (disk, second) ← ((declaration sampleFormat).code 2 sampleReplace).alone (sampleAnswers 12) 0
    disk
  pure (disk, [first, second])

theorem sampleWrites_log : sampleWrites.map (fun outcome => outcome.1.log) =
    some [⟨2, some sampleDraft, some sampleEdit⟩, ⟨1, none, some sampleDraft⟩] := by
  decide

/-- The chain of the two writes. -/
theorem declaration_writes_form_chain_sample :
    ∃ trace, ∃ pool : Pool Nat (WriteDeclaration String) DiskAnswer (Disk Nat String) String String,
      WriteChain sampleFormat none trace pool ∧
      pool.shared.log = [⟨2, some sampleDraft, some sampleEdit⟩, ⟨1, none, some sampleDraft⟩] := by
  have ran := sampleWrites_log
  simp only [sampleWrites, Option.map_eq_some_iff, Option.bind_eq_bind, Option.bind_eq_some_iff,
    Option.pure_def, Option.some.injEq] at ran
  obtain ⟨outcome, ⟨⟨one, first⟩, firstRan, ⟨two, second⟩, secondRan, rfl⟩, log⟩ := ran
  obtain ⟨turns, run⟩ := Interleaving.calls_alone (declaration sampleFormat) (Untouched none)
    (sampleAnswers 11) samplePool 1 sampleCreate rfl rfl firstRan
  obtain ⟨more, next⟩ := Interleaving.calls_alone (declaration sampleFormat) (Untouched none)
    (sampleAnswers 12)
    { samplePool with
      shared := one
      calls := Function.update samplePool.calls 1 (some sampleCreate) }
    2 sampleReplace (by simp [samplePool]) rfl secondRan
  have initial : ((declaration sampleFormat).system (Untouched none)).init samplePool :=
    ⟨⟨rfl, rfl, rfl⟩, rfl, rfl⟩
  exact ⟨_, _, (declaration_writes_form_chain initial (run.trans next)).1, log⟩

end Idk.Verified.Declaration
