import Idk.Package.Bundle
import Idk.Verified.Package.Elf
import Mathlib.Data.List.Forall2
import Mathlib.Data.List.Perm.Subperm

/-!
# What the notices and the checksums of a bundle cover

`Yields check post`: the check comes to a result, never by a panic, and what it accepts is
described by `post`.

**Main result:** `notices_and_checksums_cover`: an accepted inventory describes disjoint parts
of the notices, for every component, and an accepted checksum file lists the other members.
-/

namespace Idk.Package

open Idk.Logic

/-! ## Checks -/

/-- The check does not panic, and returns only what is described so. -/
def Yields {α : Type} (check : Checked α) (post : α → Prop) : Prop :=
  ∃ result : Result α, check.run = some result ∧ ∀ value, result = .ok value → post value

namespace Yields

variable {α β : Type} {post : α → Prop}

theorem pure {value : α} (holds : post value) : Yields (Pure.pure value) post :=
  ⟨.ok value, rfl, fun other same => by cases same; exact holds⟩

theorem lift (result : Result α) : Yields (liftM result) (result = .ok ·) :=
  ⟨result, rfl, fun _ same => same⟩

theorem read {value : Option α} {found : α} (there : value = some found) :
    Yields (liftM value) (· = found) := by
  subst there
  exact ⟨.ok found, rfl, fun other same => by cases same; rfl⟩

theorem bind {first : Checked α} {next : α → Checked β} {last : β → Prop}
    (start : Yields first post) (rest : ∀ value, post value → Yields (next value) last) :
    Yields (first >>= next) last := by
  obtain ⟨result, run, holds⟩ := start
  have whole : (first >>= next).run =
      match result with
      | .ok value => (next value).run
      | .error error => some (.error error) := by
    simp only [ExceptT.run_bind, run]
    cases result <;> rfl
  cases result with
  | ok value =>
    obtain ⟨result, more, holds⟩ := rest value (holds value rfl)
    exact ⟨result, whole.trans more, holds⟩
  | error error => exact ⟨.error error, whole, fun value same => by cases same⟩

theorem mono {other : α → Prop} {check : Checked α} (yields : Yields check post)
    (implies : ∀ value, post value → other value) : Yields check other := by
  obtain ⟨result, run, holds⟩ := yields
  exact ⟨result, run, fun value same => implies value (holds value same)⟩

/-- A condition that holds behind its check. -/
theorem ensured {condition : Bool} {message : String} {next : Unit → Checked β} {last : β → Prop}
    (rest : condition = true → Yields (next ()) last) :
    Yields (liftM (ensure condition message) >>= next) last :=
  (lift _).bind fun _ same => rest (ensure_eq_ok.mp same)

/-- A value that is there behind its check. -/
theorem found {value : Option α} {message : String} {next : α → Checked β} {last : β → Prop}
    (rest : ∀ found, value = some found → Yields (next found) last) :
    Yields (liftM (context value message) >>= next) last :=
  (lift _).bind fun found same => rest found (context_eq_ok.mp same)

end Yields

/-! ## Extents -/

/-- Two parts of the notices that do not overlap. -/
def Apart (left right : Nat × Nat) : Prop := left.2 ≤ right.1 ∨ right.2 ≤ left.1

theorem Apart.symm {left right : Nat × Nat} (apart : Apart left right) : Apart right left :=
  Or.symm apart

/-- Extents of which each ends before the next one starts are in order, all of them. -/
theorem pairwise_of_neighbours {extents : List (Nat × Nat)}
    (some_ : ∀ extent ∈ extents, extent.1 < extent.2)
    (neighbours : (extents.zip extents.tail).all fun (left, right) => left.2 ≤ right.1) :
    extents.Pairwise fun left right => left.2 ≤ right.1 := by
  induction extents with
  | nil => exact .nil
  | cons first rest inductionHypothesis =>
    cases rest with
    | nil => simp
    | cons second rest =>
      simp only [List.tail_cons, List.zip_cons_cons, List.all_cons, Bool.and_eq_true,
        decide_eq_true_eq] at neighbours
      have later := inductionHypothesis
        (fun extent member => some_ extent (List.mem_cons_of_mem _ member)) neighbours.2
      have long := some_ second (by simp)
      refine .cons (fun third member => ?_) later
      obtain rfl | member := List.mem_cons.mp member
      · exact neighbours.1
      · have behind := (List.pairwise_cons.mp later).1 third member
        have before := neighbours.1
        omega

theorem apart_of_sorted {extents : List (Nat × Nat)}
    (some_ : ∀ extent ∈ extents, extent.1 < extent.2)
    (neighbours : ((extents.mergeSort extentLe).zip (extents.mergeSort extentLe).tail).all
      fun (left, right) => left.2 ≤ right.1) : extents.Pairwise Apart := by
  have permutes := List.mergeSort_perm extents extentLe
  have sorted := pairwise_of_neighbours
    (fun extent member => some_ extent (permutes.mem_iff.mp member)) neighbours
  exact (permutes.pairwise_iff Apart.symm).mp (sorted.imp .inl)

/-! ## Notices -/

/-- The part of the notices that a document is. -/
structure Document (sha256 : List UInt8 → String) (notices : List UInt8) (document : Json)
    (extent : Nat × Nat) : Prop where
  offset : (index "notice_offset" document).asNat = some extent.1
  size : (index "notice_size" document).asNat = some (extent.2 - extent.1)
  some_ : extent.1 < extent.2
  inside : extent.2 ≤ notices.length
  text : (index "notice_sha256" document).asStr =
    some (sha256 ((notices.drop extent.1).take (extent.2 - extent.1)))

def packages (inventory : Json) : List Json := (index "packages" inventory).asArr.getD []

def runtime (inventory : Json) : List Json := (index "runtime_components" inventory).asArr.getD []

def documents (component : Json) : List Json := (index "documents" component).asArr.getD []

/-- What an inventory says about the notices. -/
structure Covered (sha256 : List UInt8 → String) (notices : List UInt8) (inventory : Json) :
    Prop where
  documented : ∀ component ∈ packages inventory ++ runtime inventory, documents component ≠ []
  extents : ∃ extents,
    List.Forall₂ (Document sha256 notices)
      ((packages inventory ++ runtime inventory).flatMap documents) extents ∧
    extents.Pairwise Apart
  static : ∀ id ∈ staticComponents, ∃ component ∈ runtime inventory,
    (index "id" component).asStr = some id

section Notices

variable {sha256 : List UInt8 → String} {notices : List UInt8}

theorem checkedAdd_some {left right sum : Nat} (added : checkedAdd left right = some sum) :
    sum = left + right := by
  unfold checkedAdd at added
  split at added
  · cases added
    rfl
  · cases added

theorem checkDocument_yields (document : Json) :
    Yields (checkDocument sha256 notices document) (Document sha256 notices document) := by
  refine .found fun start offset => .found fun size length => .found fun stop added => ?_
  obtain rfl := checkedAdd_some added
  refine .ensured fun inside => .found fun source _ => ?_
  simp only [Bool.and_eq_true, decide_eq_true_eq] at inside
  obtain ⟨some_, inside⟩ := inside
  refine .bind (.lift _) fun _ _ => .ensured fun _ => ?_
  refine .bind (.read (slice_some (Nat.le_add_right start size) inside)) fun text same => ?_
  subst same
  refine .ensured fun matches_ => .pure ?_
  have recorded := eq_of_beq matches_
  exact {
    offset, inside
    size := by rw [Nat.add_sub_cancel_left]; exact length
    some_ := Nat.lt_add_of_pos_right some_
    text := recorded }

theorem checkDocuments_yields (given : List Json) (extents : List (Nat × Nat)) :
    Yields (checkDocuments sha256 notices given extents) fun all =>
      ∃ more, all = extents ++ more ∧ List.Forall₂ (Document sha256 notices) given more := by
  induction given generalizing extents with
  | nil => exact .pure ⟨[], by simp, .nil⟩
  | cons document rest inductionHypothesis =>
    refine (checkDocument_yields document).bind fun extent describes => .ensured fun _ => ?_
    refine (inductionHypothesis (extents ++ [extent])).mono fun all found => ?_
    obtain ⟨more, rfl, others⟩ := found
    exact ⟨extent :: more, by simp, .cons describes others⟩

theorem checkComponents_yields (components : List Json) (extents : List (Nat × Nat)) :
    Yields (checkComponents sha256 notices components extents) fun all =>
      (∀ component ∈ components, documents component ≠ []) ∧ ∃ more, all = extents ++ more ∧
        List.Forall₂ (Document sha256 notices) (components.flatMap documents) more := by
  induction components generalizing extents with
  | nil => exact .pure ⟨by simp, [], by simp, .nil⟩
  | cons component rest inductionHypothesis =>
    refine .found fun given listed => .ensured fun sized => ?_
    have same : documents component = given := by rw [documents, listed]; rfl
    have some_ : given ≠ [] := by
      rintro rfl
      simp at sized
    refine (checkDocuments_yields given extents).bind fun middle described => ?_
    obtain ⟨first, rfl, here⟩ := described
    refine (inductionHypothesis _).mono fun all found => ?_
    obtain ⟨documented, more, rfl, others⟩ := found
    refine ⟨?_, first ++ more, by simp, ?_⟩
    · simpa [same] using ⟨some_, documented⟩
    · rw [List.flatMap_cons, same]
      exact List.rel_append here others

theorem described_some {given : List Json} {extents : List (Nat × Nat)}
    (described : List.Forall₂ (Document sha256 notices) given extents) :
    ∀ extent ∈ extents, extent.1 < extent.2 := by
  induction described with
  | nil => simp
  | cons describes _ inductionHypothesis =>
    exact List.forall_mem_cons.mpr ⟨describes.some_, inductionHypothesis⟩

/-- Every expected component is there under its own name: none is expected without one. -/
theorem linked_of_same {linked : List Json}
    (same : sameSet (linked.map fun component => (index "id" component).asStr.getD "")
      staticComponents = true) :
    ∀ id ∈ staticComponents, ∃ component ∈ linked, (index "id" component).asStr = some id := by
  intro id expected
  simp only [sameSet, Bool.and_eq_true, List.all_eq_true, List.contains_iff_mem] at same
  obtain ⟨component, member, named⟩ := List.mem_map.mp (same.2 id expected)
  refine ⟨component, member, ?_⟩
  cases known : (index "id" component).asStr with
  | some text =>
    rw [known] at named
    exact congrArg some named
  | none =>
    rw [known] at named
    have unnamed : "" ∉ staticComponents := by decide
    exact absurd expected (by rw [← named]; exact unnamed)

/-- An accepted inventory covers the notices. -/
theorem verifyInventory_yields (decode : List UInt8 → Result Json) (manifest : BundleManifest)
    (inventoryBytes : List UInt8) :
    Yields (verifyInventory sha256 decode manifest inventoryBytes notices) fun _ =>
      ∃ inventory, decode inventoryBytes = .ok inventory ∧ Covered sha256 notices inventory := by
  refine .bind (.lift _) fun inventory decoded => ?_
  have known : decode inventoryBytes = .ok inventory := by
    cases same : decode inventoryBytes with
    | error error =>
      rw [same] at decoded
      cases decoded
    | ok found =>
      rw [same] at decoded
      cases decoded
      rfl
  refine .ensured fun _ => .ensured fun _ => .ensured fun _ => .found fun policy _ => ?_
  refine .bind (.lift _) fun _ _ => .ensured fun _ => ?_
  refine .found fun listed packaged => .found fun linked running => .ensured fun _ => ?_
  refine .ensured fun five => ?_
  have first : packages inventory = listed := by rw [packages, packaged]; rfl
  have second : runtime inventory = linked := by rw [runtime, running]; rfl
  refine (checkComponents_yields (listed ++ linked) []).bind fun all found => ?_
  obtain ⟨documented, extents, same, described⟩ := found
  rw [List.nil_append] at same
  subst same
  refine .mono (.lift _) fun _ ordered => ⟨inventory, known, ?_⟩
  have neighbours := ensure_eq_ok.mp ordered
  exact {
    documented := by rw [first, second]; exact documented
    extents := by
      rw [first, second]
      exact ⟨all, described, apart_of_sorted (described_some described) neighbours⟩
    static := by rw [second]; exact linked_of_same five }

end Notices

/-! ## Members -/

/-- The files of a bundle are those of `FILES`. -/
def Members (files : Files) : Prop := ∀ name, name ∈ files ↔ name ∈ fileNames

/-- A map with as many keys of a list as the list has elements has all of them. -/
theorem mem_of_size {files : Files} (known : ∀ name ∈ files, name ∈ fileNames)
    (size : files.size = fileNames.length) : Members files := by
  have sub : List.Subperm files.keys fileNames :=
    Std.TreeMap.nodup_keys.subperm fun name member => known name (Std.TreeMap.mem_keys.mp member)
  have length : fileNames.length ≤ files.keys.length := by
    rw [Std.TreeMap.length_keys, size]
  have permutes := sub.perm_of_length_le length
  exact fun name => Std.TreeMap.mem_keys.symm.trans permutes.mem_iff

/-- What the loop over the archive returns has each member once. -/
theorem collect_members {entries : List (Result Entry)} {files all : Files} {unpacked : Nat}
    (known : ∀ name ∈ files, name ∈ fileNames) (collected : collect entries files unpacked = .ok all) :
    Members all := by
  induction entries generalizing files unpacked with
  | nil =>
    obtain ⟨_, sized, ends⟩ := bind_eq_ok.mp collected
    cases ends
    exact mem_of_size known (by simpa using sized)
  | cons entry rest inductionHypothesis =>
    obtain ⟨entry, -, collected⟩ := bind_eq_ok.mp collected
    obtain ⟨_, -, collected⟩ := bind_eq_ok.mp collected
    obtain ⟨_, -, collected⟩ := bind_eq_ok.mp collected
    obtain ⟨name, -, collected⟩ := bind_eq_ok.mp collected
    obtain ⟨_, expected, collected⟩ := bind_eq_ok.mp collected
    obtain ⟨_, -, collected⟩ := bind_eq_ok.mp collected
    obtain ⟨_, -, collected⟩ := bind_eq_ok.mp collected
    obtain ⟨_, -, collected⟩ := bind_eq_ok.mp collected
    obtain ⟨_, -, collected⟩ := bind_eq_ok.mp collected
    obtain ⟨_, -, collected⟩ := bind_eq_ok.mp collected
    obtain ⟨bytes, -, collected⟩ := bind_eq_ok.mp collected
    obtain ⟨_, -, collected⟩ := bind_eq_ok.mp collected
    refine inductionHypothesis (fun other member => ?_) collected
    rw [Std.TreeMap.mem_insert] at member
    obtain same | old := member
    · obtain rfl := Std.LawfulEqCmp.eq_of_compare same
      simp at expected
      exact expected.1
    · exact known other old

section Checksums

variable {sha256 : List UInt8 → String} {files : Files}

/-- The line of the checksum file for a member. -/
def Lists (sha256 : List UInt8 → String) (files : Files) (line : List Char) (name : String) :
    Prop :=
  ∃ bytes, files[name]? = some bytes ∧ line = (sha256 bytes).toList ++ [' ', ' '] ++ name.toList

/-- The lines of the checksum file are those of the other members, in some order. -/
def ChecksumsCover (sha256 : List UInt8 → String) (files : Files) : Prop :=
  ∃ (bytes : List UInt8) (text : String) (names : List String), files[checksums]? = some bytes ∧
    String.fromUTF8? ⟨bytes.toArray⟩ = some text ∧
    List.Forall₂ (Lists sha256 files) (lines [] text.toList) names ∧
    names.Perm (fileNames.erase checksums)

/-- Lines that are accepted list members that were not observed before, each once. -/
theorem checkLines_yields (members : Members files) (given : List (List Char))
    (observed : BTreeMap String) :
    Yields (checkLines sha256 files given observed) fun all => ∃ names,
      List.Forall₂ (Lists sha256 files) given names ∧ names.Nodup ∧
        (∀ name ∈ names, name ∈ fileNames ∧ name ≠ checksums ∧ name ∉ observed) ∧
        all.size = observed.size + names.length := by
  induction given generalizing observed with
  | nil => exact .pure ⟨[], .nil, .nil, by simp, by simp⟩
  | cons line rest inductionHypothesis =>
    refine .found fun (digest, name) cut => .bind (.lift _) fun _ _ => .ensured fun target => ?_
    simp only [Bool.and_eq_true, bne_iff_ne, ne_eq, Bool.not_eq_true', ← Bool.not_eq_true,
      Std.TreeMap.contains_iff_mem] at target
    obtain ⟨⟨other, member⟩, fresh⟩ := target
    obtain ⟨bytes, content⟩ := Std.TreeMap.isSome_getElem?_iff_mem.mpr member |> Option.isSome_iff_exists.mp
    refine .bind (.read content) fun found same => ?_
    subst same
    refine .ensured fun matches_ => ?_
    refine (inductionHypothesis _).mono fun all listed => ?_
    obtain ⟨names, others, nodup, each, size⟩ := listed
    have split : line = (sha256 found).toList ++ [' ', ' '] ++ (String.ofList name).toList := by
      rw [eq_of_beq matches_, String.toList_ofList, String.toList_ofList]
      exact cutAt_some cut
    refine ⟨String.ofList name :: names, .cons ⟨found, content, split⟩ others, ?_, ?_, ?_⟩
    · refine List.nodup_cons.mpr ⟨fun again => ?_, nodup⟩
      exact (each _ again).2.2 Std.TreeMap.mem_insert_self
    · refine List.forall_mem_cons.mpr ⟨⟨(members _).mp member, other, fresh⟩, fun next later => ?_⟩
      obtain ⟨known, apart, unseen⟩ := each next later
      exact ⟨known, apart, fun seen => unseen (Std.TreeMap.mem_insert.mpr (.inr seen))⟩
    · have new : ¬ observed.contains (String.ofList name) = true := by simpa using fresh
      rw [size, Std.TreeMap.size_insert, if_neg new, List.length_cons]
      omega

/-- An accepted checksum file lists every other member once. -/
theorem verifyChecksums_yields (members : Members files) :
    Yields (verifyChecksums sha256 files) fun _ => ChecksumsCover sha256 files := by
  have there : checksums ∈ files := (members checksums).mpr (by decide)
  obtain ⟨bytes, content⟩ :=
    Option.isSome_iff_exists.mp (Std.TreeMap.isSome_getElem?_iff_mem.mpr there)
  refine .bind (.read content) fun found same => ?_
  subst same
  refine .found fun text decoded => (checkLines_yields members _ ∅).bind fun observed listed => ?_
  obtain ⟨names, given, nodup, each, size⟩ := listed
  refine .mono (.lift _) fun _ sized => ⟨found, text, names, content, decoded, given, ?_⟩
  have four : observed.size = fileNames.length - 1 := by simpa using ensure_eq_ok.mp sized
  have sub : names.Subperm (fileNames.erase checksums) :=
    nodup.subperm fun name member =>
      (List.mem_erase_of_ne (each name member).2.1).mpr (each name member).1
  have once : checksums ∈ fileNames := by decide
  refine sub.perm_of_length_le ?_
  rw [List.length_erase_of_mem once, ← four, size]
  simp

end Checksums

/-- What is accepted covers the notices, and the checksums of all other members of the archive. -/
theorem notices_and_checksums_cover (sha256 : List UInt8 → String)
    (decode : List UInt8 → Result Json) :
    (∀ (manifest : BundleManifest) (inventoryBytes notices : List UInt8),
      ∃ result, (verifyInventory sha256 decode manifest inventoryBytes notices).run = some result ∧
        (result = .ok () →
          ∃ inventory, decode inventoryBytes = .ok inventory ∧ Covered sha256 notices inventory)) ∧
    ∀ (entries : List (Result Entry)) (files : Files), collect entries ∅ 0 = .ok files →
      ∃ result, (verifyChecksums sha256 files).run = some result ∧
        (result = .ok () → ChecksumsCover sha256 files) := by
  refine ⟨fun manifest inventoryBytes notices => ?_, fun entries files collected => ?_⟩
  · obtain ⟨result, run, covers⟩ :=
      @verifyInventory_yields sha256 notices decode manifest inventoryBytes
    exact ⟨result, run, covers ()⟩
  · have members := @collect_members _ ∅ _ _ (by simp) collected
    obtain ⟨result, run, covers⟩ := @verifyChecksums_yields sha256 _ members
    exact ⟨result, run, covers ()⟩

end Idk.Package
