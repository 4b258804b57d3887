import Idk.Package.Elf
import Mathlib.Data.List.Basic

/-!
# What the check of a static executable accepts

`Decides check accepts`: the check always comes to a result, and accepts exactly under
`accepts`.  Its rules follow the check read by read.

**Main result:** `verifyStaticElf_exact`: no access is out of range, no sum or product
overflows, and what is accepted is a static executable or shared object.
-/

namespace Idk.Package

/-! ## The format -/

/-- The number that a field holds. -/
def field (bytes : List UInt8) (offset size : Nat) : Nat :=
  fromLittleEndian ((bytes.drop offset).take size)

/-- `DT_NEEDED` comes only behind the first `DT_NULL` of the segment. -/
def FreeOfLibraries (bytes : List UInt8) (offset length : Nat) : Prop :=
  ∀ index, index < length / 16 → field bytes (offset + index * 16) 8 = 1 →
    ∃ earlier, earlier < index ∧ field bytes (offset + earlier * 16) 8 = 0

/-- The program header at an offset: no `PT_INTERP`, and a `PT_DYNAMIC` without libraries. -/
structure StaticHeader (bytes : List UInt8) (header : Nat) : Prop where
  uninterpreted : field bytes header 4 ≠ 3
  inside : field bytes header 4 = 2 →
    field bytes (header + 8) 8 + field bytes (header + 32) 8 ≤ bytes.length
  whole : field bytes header 4 = 2 → field bytes (header + 32) 8 % 16 = 0
  free : field bytes header 4 = 2 →
    FreeOfLibraries bytes (field bytes (header + 8) 8) (field bytes (header + 32) 8)

/-- A little-endian ELF64 file for x86_64, an executable or a shared object, that is static. -/
structure StaticElf (bytes : List UInt8) : Prop where
  header : 64 ≤ bytes.length
  magic : bytes.take 4 = [0x7f, 0x45, 0x4c, 0x46]
  bits : field bytes 4 1 = 2
  order : field bytes 5 1 = 1
  kind : field bytes 16 2 = 2 ∨ field bytes 16 2 = 3
  machine : field bytes 18 2 = 62
  headerSize : field bytes 52 2 = 64
  entrySize : field bytes 54 2 = 56
  count : 0 < field bytes 56 2 ∧ field bytes 56 2 ≤ 1024
  table : field bytes 32 8 + 56 * field bytes 56 2 ≤ bytes.length
  entries : ∀ index, index < field bytes 56 2 →
    StaticHeader bytes (field bytes 32 8 + index * 56)

/-! ## Fields -/

section Fields

variable {bytes : List UInt8} {offset size start length : Nat}

theorem slice_some (order : start ≤ size) (inside : size ≤ bytes.length) :
    slice bytes start size = some ((bytes.drop start).take (size - start)) :=
  if_pos ⟨order, inside⟩

/-- A field of a part is a field of the whole. -/
theorem field_part (inside : offset + size ≤ length) :
    field ((bytes.drop start).take length) offset size = field bytes (start + offset) size := by
  have short : min size (length - offset) = size := by omega
  simp [field, List.drop_take, List.take_take, short]

theorem field_byte {byte : UInt8} (there : byteAt bytes offset = some byte) :
    field bytes offset 1 = byte.toNat := by
  obtain ⟨inside, same⟩ := List.getElem?_eq_some_iff.mp there
  have split : (bytes.drop offset).take 1 = [byte] := by
    rw [List.drop_eq_getElem_cons inside, same]
    rfl
  rw [field, split]
  simp [fromLittleEndian]

theorem byteAt_some (inside : offset < bytes.length) : ∃ byte, byteAt bytes offset = some byte :=
  ⟨bytes[offset], List.getElem?_eq_getElem inside⟩

theorem u16At_eq (inside : offset + 2 ≤ bytes.length) :
    u16At bytes offset = pure (field bytes offset 2) := by
  obtain ⟨low, first⟩ := @byteAt_some bytes offset (by omega)
  obtain ⟨high, second⟩ := @byteAt_some bytes (offset + 1) (by omega)
  have two : (bytes.drop offset).take 2 = [low, high] := by
    obtain ⟨here, one⟩ := List.getElem?_eq_some_iff.mp first
    obtain ⟨there, other⟩ := List.getElem?_eq_some_iff.mp second
    rw [List.drop_eq_getElem_cons here, List.drop_eq_getElem_cons there, one, other]
    rfl
  rw [u16At, first, second, field, two]
  rfl

theorem u32At_eq (inside : offset + 4 ≤ bytes.length) :
    u32At bytes offset = pure (field bytes offset 4) := by
  rw [u32At, slice_some (by omega) inside, Nat.add_sub_cancel_left]
  rfl

theorem u64At_eq (inside : offset + 8 ≤ bytes.length) :
    u64At bytes offset = pure (field bytes offset 8) := by
  rw [u64At, slice_some (by omega) inside, Nat.add_sub_cancel_left]
  rfl

theorem fromLittleEndian_lt (bytes : List UInt8) : fromLittleEndian bytes < 256 ^ bytes.length := by
  induction bytes with
  | nil => simp [fromLittleEndian]
  | cons byte rest inductionHypothesis =>
    have small := byte.toNat_lt
    simp only [fromLittleEndian, List.foldr_cons, List.length_cons, Nat.pow_succ] at inductionHypothesis ⊢
    omega

theorem field_lt : field bytes offset size < 256 ^ size :=
  Nat.lt_of_lt_of_le (fromLittleEndian_lt _)
    (Nat.pow_le_pow_right (by omega) (List.length_take_le _ _))

end Fields

/-! ## Decisions -/

/-- The check comes to a result, and accepts exactly under this condition. -/
def Decides (check : Checked Unit) (accepts : Prop) : Prop :=
  ∃ result : Result Unit, check.run = some result ∧ (result = .ok () ↔ accepts)

namespace Decides

variable {α : Type} {accepts : Prop}

theorem congr {other : Prop} {check : Checked Unit} (decides : Decides check accepts)
    (same : accepts ↔ other) : Decides check other := by
  obtain ⟨result, run, iff⟩ := decides
  exact ⟨result, run, iff.trans same⟩

theorem done (holds : accepts) : Decides (pure ()) accepts := ⟨.ok (), rfl, by simpa using holds⟩

theorem checked {condition : Bool} {message : String} {next : Unit → Checked Unit}
    (refuses : accepts → condition = true) (rest : condition = true → Decides (next ()) accepts) :
    Decides (liftM (ensure condition message) >>= next) accepts := by
  cases known : condition with
  | true => exact rest known
  | false =>
    refine ⟨.error message, rfl, ?_⟩
    have never : ¬ accepts := fun holds => by simp [refuses holds] at known
    simpa using never

theorem read {value : Option α} {found : α} {next : α → Checked Unit} (there : value = some found)
    (rest : Decides (next found) accepts) : Decides (liftM value >>= next) accepts := by
  subst there
  exact rest

theorem call {op : Checked α} {value : α} {next : α → Checked Unit} (returns : op = pure value)
    (rest : Decides (next value) accepts) : Decides (op >>= next) accepts := by
  subst returns
  exact rest

/-- An overflow is an error of the file. -/
theorem guarded {value : Option α} {message : String} {next : α → Checked Unit}
    (refuses : accepts → value ≠ none)
    (rest : ∀ found, value = some found → Decides (next found) accepts) :
    Decides (liftM (context value message) >>= next) accepts := by
  cases known : value with
  | some found => exact rest found known
  | none =>
    refine ⟨.error message, rfl, ?_⟩
    have never : ¬ accepts := fun holds => refuses holds known
    simpa using never

theorem bind_unit {first : Checked Unit} {next : Unit → Checked Unit} {one : Prop}
    (start : Decides first one) (rest : Decides (next ()) accepts) :
    Decides (first >>= next) (one ∧ accepts) := by
  obtain ⟨result, run, iff⟩ := start
  obtain ⟨last, more, both⟩ := rest
  have whole : (first >>= next).run =
      match result with
      | .ok _ => (next ()).run
      | .error error => some (.error error) := by
    simp only [ExceptT.run_bind, run]
    cases result <;> rfl
  cases result with
  | ok done => exact ⟨last, whole.trans more, by simpa [← iff] using both⟩
  | error error => exact ⟨.error error, whole, by simp [← iff]⟩

theorem forM {check : α → Checked Unit} {accepted : α → Prop} {values : List α}
    (each : ∀ value ∈ values, Decides (check value) (accepted value)) :
    Decides (values.forM check) (∀ value ∈ values, accepted value) := by
  induction values with
  | nil => exact done (by simp)
  | cons head rest inductionHypothesis =>
    have here := each head List.mem_cons_self
    have others := inductionHypothesis fun value member => each value (List.mem_cons_of_mem _ member)
    exact (here.bind_unit others).congr (by simp)

end Decides

/-! ## The parts of the check -/

theorem mem_chunksExact {size : Nat} {bytes chunk : List UInt8} :
    chunk ∈ chunksExact size bytes ↔ ∃ index, index < bytes.length / size ∧
      chunk = (bytes.drop (index * size)).take size := by
  simp [chunksExact, eq_comm]

/-- A needed library comes only behind a null. -/
def NoNeeded (entries : List (List UInt8)) : Prop :=
  ∀ (index : Nat) (entry : List UInt8), entries[index]? = some entry → field entry 0 8 = 1 →
    ∃ (earlier : Nat) (null : List UInt8), earlier < index ∧ entries[earlier]? = some null ∧
      field null 0 8 = 0

theorem noNeeded_cons {head : List UInt8} {rest : List (List UInt8)} (tag : field head 0 8 ≠ 0) :
    NoNeeded (head :: rest) ↔ field head 0 8 ≠ 1 ∧ NoNeeded rest := by
  constructor
  · intro all
    constructor
    · intro needed
      obtain ⟨earlier, _, before, _⟩ := all 0 head rfl needed
      omega
    · intro index entry found needed
      obtain ⟨earlier, null, before, there, ended⟩ := all (index + 1) entry found needed
      cases earlier with
      | zero =>
        cases there
        exact absurd ended tag
      | succ earlier => exact ⟨earlier, null, Nat.lt_of_succ_lt_succ before, there, ended⟩
  · rintro ⟨plain, later⟩ index entry found needed
    cases index with
    | zero =>
      cases found
      exact absurd needed plain
    | succ index =>
      obtain ⟨earlier, null, before, there, ended⟩ := later index entry found needed
      exact ⟨earlier + 1, null, Nat.succ_lt_succ before, there, ended⟩

/-- The first null ends the loop over the tags. -/
theorem checkEntries_decides {entries : List (List UInt8)}
    (sized : ∀ entry ∈ entries, 8 ≤ entry.length) :
    Decides (checkEntries entries) (NoNeeded entries) := by
  induction entries with
  | nil => exact .done fun index entry found => by simp at found
  | cons head rest inductionHypothesis =>
    have others := inductionHypothesis fun entry member => sized entry (List.mem_cons_of_mem _ member)
    refine .call (u64At_eq (by simpa using sized head List.mem_cons_self)) ?_
    by_cases null : field head 0 8 = 0
    · rw [if_pos null]
      refine .done fun index entry found needed => ?_
      cases index with
      | zero =>
        cases found
        omega
      | succ index => exact ⟨0, head, Nat.succ_pos index, rfl, null⟩
    · rw [if_neg null]
      have same := @noNeeded_cons _ rest null
      refine .checked (fun all => by simpa using (same.mp all).1) fun plain => others.congr ?_
      have plain : field head 0 8 ≠ 1 := by simpa using plain
      exact ⟨fun later => same.mpr ⟨plain, later⟩, fun all => (same.mp all).2⟩

/-- The entries of a segment, where they stand in the file. -/
theorem checkSegment_decides {bytes : List UInt8} {offset length : Nat}
    (inside : offset + length ≤ bytes.length) (whole : length % 16 = 0) :
    Decides (checkEntries (chunksExact 16 ((bytes.drop offset).take length)))
      (FreeOfLibraries bytes offset length) := by
  have sized : ((bytes.drop offset).take length).length = length := by simp; omega
  have entry (index : Nat) (before : index < length / 16) :
      (chunksExact 16 ((bytes.drop offset).take length))[index]? =
        some ((bytes.drop (offset + index * 16)).take 16) := by
    have part : ((bytes.drop offset).take length).drop (index * 16) =
        ((bytes.drop (offset + index * 16)).take (length - index * 16)) := by
      simp [List.drop_take]
    have short : min 16 (length - index * 16) = 16 := by omega
    rw [chunksExact, sized, List.getElem?_map, List.getElem?_range before, Option.map_some, part,
      List.take_take, short]
  have outside (index : Nat) (past : length / 16 ≤ index) :
      (chunksExact 16 ((bytes.drop offset).take length))[index]? = none := by
    rw [List.getElem?_eq_none_iff, chunksExact, sized]
    simpa using past
  have tag (index : Nat) : field ((bytes.drop (offset + index * 16)).take 16) 0 8 =
      field bytes (offset + index * 16) 8 := field_part (by omega)
  refine (checkEntries_decides fun chunk member => ?_).congr ?_
  · obtain ⟨index, before, rfl⟩ := mem_chunksExact.mp member
    rw [sized] at before
    simp
    omega
  · constructor
    · intro all index before needed
      obtain ⟨earlier, null, first, found, ended⟩ :=
        all index _ (entry index before) ((tag index).trans needed)
      rw [entry earlier (Nat.lt_trans first before)] at found
      cases found
      exact ⟨earlier, first, (tag earlier).symm.trans ended⟩
    · intro free index chunk found needed
      have before : index < length / 16 := by
        by_contra past
        rw [outside index (by omega)] at found
        cases found
      rw [entry index before] at found
      cases found
      obtain ⟨earlier, first, ended⟩ := free index before ((tag index).symm.trans needed)
      exact ⟨earlier, _, first, entry earlier (Nat.lt_trans first before), (tag earlier).trans ended⟩

theorem checkHeader_decides {bytes : List UInt8} (fits : bytes.length < 2 ^ 63) {header : Nat}
    (inside : header + 56 ≤ bytes.length) :
    Decides (checkHeader bytes ((bytes.drop header).take 56)) (StaticHeader bytes header) := by
  have sized : ((bytes.drop header).take 56).length = 56 := by simp; omega
  have kind : field ((bytes.drop header).take 56) 0 4 = field bytes header 4 :=
    field_part (by omega)
  have offset : field ((bytes.drop header).take 56) 8 8 = field bytes (header + 8) 8 :=
    field_part (by omega)
  have length : field ((bytes.drop header).take 56) 32 8 = field bytes (header + 32) 8 :=
    field_part (by omega)
  refine .call (u32At_eq (by omega)) ?_
  rw [kind]
  refine .checked (fun static => by simpa using static.uninterpreted) fun plain => ?_
  have plain : field bytes header 4 ≠ 3 := by simpa using plain
  by_cases dynamic : field bytes header 4 = 2
  · rw [if_pos dynamic]
    refine .call (u64At_eq (by omega)) (.call (u64At_eq (by omega)) ?_)
    rw [offset, length]
    refine .guarded (fun static overflow => ?_) fun stop added => ?_
    · have within := static.inside dynamic
      unfold checkedAdd at overflow
      split at overflow
      · cases overflow
      · omega
    · unfold checkedAdd at added
      split at added
      · cases added
        refine .checked (fun static => ?_) fun segment => ?_
        · simp [static.inside dynamic, static.whole dynamic]
        · simp only [Bool.and_eq_true, decide_eq_true_eq, beq_iff_eq] at segment
          obtain ⟨within, whole⟩ := segment
          refine .read (slice_some (Nat.le_add_right _ _) within) ?_
          rw [Nat.add_sub_cancel_left]
          refine (checkSegment_decides within whole).congr ⟨fun free => ?_, fun static => static.free dynamic⟩
          exact ⟨plain, fun _ => within, fun _ => whole, fun _ => free⟩
      · cases added
  · rw [if_neg dynamic]
    exact .done ⟨plain, fun same => absurd same dynamic, fun same => absurd same dynamic,
      fun same => absurd same dynamic⟩

/-- The program headers, where they stand in the file. -/
theorem checkTable_decides {bytes : List UInt8} (fits : bytes.length < 2 ^ 63) {start count : Nat}
    (inside : start + 56 * count ≤ bytes.length) :
    Decides ((chunksExact 56 ((bytes.drop start).take (56 * count))).forM (checkHeader bytes))
      (∀ index, index < count → StaticHeader bytes (start + index * 56)) := by
  have sized : ((bytes.drop start).take (56 * count)).length = 56 * count := by simp; omega
  have chunk (index : Nat) (before : index < count) :
      (((bytes.drop start).take (56 * count)).drop (index * 56)).take 56 =
        (bytes.drop (start + index * 56)).take 56 := by
    have short : min 56 (56 * count - index * 56) = 56 := by omega
    rw [List.drop_take, List.drop_drop, List.take_take, short]
  have each (index : Nat) (member : index ∈ List.range count) :
      Decides (checkHeader bytes ((((bytes.drop start).take (56 * count)).drop (index * 56)).take 56))
        (StaticHeader bytes (start + index * 56)) := by
    have before := List.mem_range.mp member
    rw [chunk index before]
    exact checkHeader_decides fits (by omega)
  rw [chunksExact, sized, Nat.mul_div_cancel_left _ (by omega), List.forM_eq_forM, List.forM_map]
  exact (Decides.forM each).congr (by simp)

/-- The check never panics, and what it accepts is what a static file for this machine is. -/
theorem verifyStaticElf_exact (bytes : Bytes) :
    ∃ result : Result Unit, (verifyStaticElf bytes.1).run = some result ∧
      (result = .ok () ↔ StaticElf bytes.1) := by
  obtain ⟨bytes, fits⟩ := bytes
  dsimp only
  refine Decides.checked (fun static => by simpa using static.header) fun header => ?_
  have header : 64 ≤ bytes.length := by simpa using header
  obtain ⟨bits, atBits⟩ := @byteAt_some bytes 4 (by omega)
  obtain ⟨order, atOrder⟩ := @byteAt_some bytes 5 (by omega)
  have bitsField := field_byte atBits
  have orderField := field_byte atOrder
  refine .read (slice_some (by omega) (by omega)) (.read atBits (.read atOrder ?_))
  refine .checked (fun static => ?_) fun ident => ?_
  · have first := static.bits
    have second := static.order
    rw [bitsField] at first
    rw [orderField] at second
    simp [static.magic, ← UInt8.toNat_inj, first, second]
  simp only [List.drop_zero, Nat.sub_zero, Bool.and_eq_true, beq_iff_eq] at ident
  obtain ⟨⟨magic, bitsByte⟩, orderByte⟩ := ident
  refine .call (u16At_eq (by omega)) (.call (u16At_eq (by omega)) (.call (u16At_eq (by omega)) ?_))
  refine .checked (fun static => ?_) fun target => ?_
  · simpa [static.machine, static.headerSize] using static.kind
  simp only [Bool.and_eq_true, Bool.or_eq_true, beq_iff_eq] at target
  obtain ⟨⟨kind, machine⟩, headerSize⟩ := target
  refine .call (u64At_eq (by omega)) (.call (u16At_eq (by omega)) (.call (u16At_eq (by omega)) ?_))
  refine .checked (fun static => ?_) fun shape => ?_
  · simpa [static.entrySize] using static.count
  simp only [Bool.and_eq_true, decide_eq_true_eq, beq_iff_eq] at shape
  obtain ⟨⟨size, some⟩, few⟩ := shape
  rw [size]
  refine .guarded (fun _ overflow => ?_) fun length multiplied => ?_
  · unfold checkedMul at overflow
    split at overflow
    · cases overflow
    · omega
  unfold checkedMul at multiplied
  split at multiplied
  case isFalse => cases multiplied
  cases multiplied
  refine .guarded (fun static overflow => ?_) fun stop added => ?_
  · have table := static.table
    unfold checkedAdd at overflow
    split at overflow
    · cases overflow
    · omega
  unfold checkedAdd at added
  split at added
  case isFalse => cases added
  cases added
  refine .checked (fun static => by simpa using static.table) fun inside => ?_
  have inside : field bytes 32 8 + 56 * field bytes 56 2 ≤ bytes.length := by simpa using inside
  refine .read (slice_some (Nat.le_add_right _ _) inside) ?_
  rw [Nat.add_sub_cancel_left]
  refine (checkTable_decides fits inside).congr ⟨fun entries => ?_, fun static => static.entries⟩
  exact {
    header, magic
    bits := by rw [bitsField, bitsByte]; rfl
    order := by rw [orderField, orderByte]; rfl
    kind, machine, headerSize
    entrySize := size
    count := ⟨some, few⟩
    table := inside
    entries }

end Idk.Package
