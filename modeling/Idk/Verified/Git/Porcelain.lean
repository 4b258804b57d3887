import Idk.Verified.Git.Texts
import Idk.Logic.Terminated
import Mathlib.Data.List.Induction

/-!
# Git's answers are read as what they say

The records of a status, a raw diff and a history as Git writes them, each string with the
terminator behind it.  What is written is read back record by record, and an answer that is cut
inside of a record is refused.
-/

namespace Idk.Git

open Logic (Format terminated terminated_cons)

/-! ## The records of a status -/

/-- A header that names the upstream branch. -/
structure Upstream where
  name : String
  whole : 0 ∉ bytesOf name

/-- A header that counts the commits on either side. -/
structure Counts where
  value : String
  ahead : Nat
  behind : Nat
  whole : 0 ∉ bytesOf value
  words : ∃ more, splitWhitespace value =
    String.ofList ('+' :: Nat.toDigits 10 ahead) ::
      String.ofList ('-' :: Nat.toDigits 10 behind) :: more
  bounded : ahead < 2 ^ 64 ∧ behind < 2 ^ 64

/-- A header of another kind, behind its `#`. -/
structure OtherHeader where
  bytes : List UInt8
  whole : 0 ∉ bytes
  unknown : ¬ bytesOf "# branch.upstream " <+: 35 :: bytes ∧
    ¬ bytesOf "# branch.ab " <+: 35 :: bytes

/-- The four letters of a record about a submodule: whether its commit changed, whether it has
changes and whether it has untracked files. -/
def submoduleText : Option (Bool × Bool × Bool) → String
  | none => "N..."
  | some (commit, changes, untracked) => String.ofList ['S', if commit then 'C' else '.',
      if changes then 'M' else '.', if untracked then 'U' else '.']

/-- A record of a tracked file, with so many fields between its submodule and its path. -/
structure Tracked (count : Nat) where
  indexStatus : UInt8
  worktreeStatus : UInt8
  submodule : Option (Bool × Bool × Bool)
  fields : List (List UInt8)
  path : GitPath
  statuses : 0 ∉ [indexStatus, worktreeStatus] ∧ 32 ∉ [indexStatus, worktreeStatus]
  length : fields.length = count
  plain : ∀ field ∈ fields, 0 ∉ field ∧ 32 ∉ field

inductive Record where
  | upstream (header : Upstream)
  | counts (header : Counts)
  | other (header : OtherHeader)
  | ordinary (entry : Tracked 5)
  | renamed (entry : Tracked 6) (original : GitPath)
  | unmerged (entry : Tracked 7)
  | untracked (path : GitPath) (directory : Bool)
  | ignored (path : GitPath) (directory : Bool)

/-- The fields of a record in front of its path. -/
def Tracked.before {count : Nat} (kind : UInt8) (entry : Tracked count) : List (List UInt8) :=
  [kind] :: [entry.indexStatus, entry.worktreeStatus] :: bytesOf (submoduleText entry.submodule) ::
    entry.fields

def Tracked.string {count : Nat} (kind : UInt8) (entry : Tracked count) : List UInt8 :=
  terminated 32 (entry.before kind) ++ entry.path.bytes

def directoryMark (directory : Bool) : List UInt8 := if directory then [47] else []

/-- The strings of a record; a rename has a second one. -/
def Record.strings : Record → List (List UInt8)
  | .upstream header => [bytesOf "# branch.upstream " ++ bytesOf header.name]
  | .counts header => [bytesOf "# branch.ab " ++ bytesOf header.value]
  | .other header => [35 :: header.bytes]
  | .ordinary entry => [entry.string 49]
  | .renamed entry original => [entry.string 50, original.bytes]
  | .unmerged entry => [entry.string 117]
  | .untracked path directory => [63 :: 32 :: (path.bytes ++ directoryMark directory)]
  | .ignored path directory => [33 :: 32 :: (path.bytes ++ directoryMark directory)]

def Tracked.change {count : Nat} (entry : Tracked count) (conflict : Bool)
    (originalPath : Option GitPath) : GitChange where
  path := entry.path
  originalPath := originalPath
  indexStatus := charOf entry.indexStatus
  worktreeStatus := charOf entry.worktreeStatus
  conflict := conflict
  untracked := false
  submodule := entry.submodule.map fun flags => submoduleText (some flags)

/-- An untracked or ignored file as a change. -/
def otherChange (path : GitPath) : GitChange where
  path := path
  originalPath := none
  indexStatus := '?'
  worktreeStatus := '?'
  conflict := false
  untracked := true
  submodule := none

/-- The change that a record tells of. -/
def Record.change : Record → Option GitChange
  | .ordinary entry => some (entry.change false none)
  | .renamed entry original => some (entry.change false (some original))
  | .unmerged entry => some (entry.change true none)
  | .untracked path _ | .ignored path _ => some (otherChange path)
  | .upstream _ | .counts _ | .other _ => none

def Record.branch : Record → Option String
  | .upstream header => some header.name
  | _ => none

def Record.commits : Record → Option (Nat × Nat)
  | .counts header => some (header.ahead, header.behind)
  | _ => none

/-- What the records of a status say: their changes in order, and the last headers. -/
def reported (records : List Record) : Porcelain where
  entries := records.filterMap Record.change
  upstream := (records.filterMap Record.branch).getLast?
  ahead := (records.filterMap Record.commits).getLast?.map Prod.fst
  behind := (records.filterMap Record.commits).getLast?.map Prod.snd

/-! ## Paths and fields -/

theorem fromBytes_bytes (path : GitPath) : GitPath.fromBytes path.bytes = .ok path := by
  obtain ⟨bytes, inside⟩ := path
  rw [GitPath.fromBytes]
  split
  · rfl
  · rename_i refused
    cases inside.symm.trans refused

theorem GitPath.plain (path : GitPath) : path.bytes ≠ [] ∧ 0 ∉ path.bytes ∧
    ¬ ∃ front, path.bytes = front ++ [47] := by
  obtain ⟨bytes, inside⟩ := path
  simp only [checkPath, bind_eq_ok, ensure_eq_ok, Bool.and_eq_true, Bool.not_eq_true',
    List.contains_eq_mem, decide_eq_false_iff_not, List.isEmpty_eq_false_iff,
    List.any_eq_false, Bool.or_eq_true, not_or] at inside
  obtain ⟨-, ⟨⟨some_, -⟩, whole⟩, -, names⟩ := inside
  refine ⟨some_, whole, ?_⟩
  rintro ⟨front, rfl⟩
  refine (names [] ?_).2 rfl
  rw [List.splitOn_append_cons_self]
  simp

/-- The mark of a directory is no part of the name. -/
theorem unmarked_directoryMark (path : GitPath) (directory : Bool) :
    unmarked (path.bytes ++ directoryMark directory) = path.bytes := by
  cases directory with
  | true => simp [unmarked, directoryMark]
  | false =>
    rw [directoryMark, if_neg (by decide), List.append_nil, unmarked, if_neg]
    intro last
    obtain ⟨front, same⟩ := List.getLast?_eq_some_iff.mp last
    exact path.plain.2.2 ⟨front, same⟩

/-- Fields with blanks behind them, and the rest of the record whatever it has. -/
theorem splitN_terminated {fields : List (List UInt8)} {tail : List UInt8}
    (plain : ∀ field ∈ fields, 32 ∉ field) :
    splitN (fields.length + 1) (terminated 32 fields ++ tail) = fields ++ [tail] := by
  induction fields with
  | nil => rfl
  | cons field fields inductionHypothesis =>
    have own : ∀ byte ∈ field, (byte != 32) = true := fun byte mem =>
      bne_iff_ne.mpr fun blank => plain field List.mem_cons_self (blank ▸ mem)
    have later := inductionHypothesis fun other mem => plain other (List.mem_cons_of_mem _ mem)
    rw [terminated_cons, List.append_assoc, List.cons_append, List.length_cons, splitN,
      List.dropWhile_append_of_pos own, List.takeWhile_append_of_pos own]
    simp [later]

theorem submoduleText_spec (submodule : Option (Bool × Bool × Bool)) :
    0 ∉ bytesOf (submoduleText submodule) ∧ 32 ∉ bytesOf (submoduleText submodule) ∧
      (bytesOf (submoduleText submodule)).length = 4 ∧
      (bytesOf (submoduleText submodule)).head? = some (if submodule.isSome then 83 else 78) := by
  obtain _ | ⟨commit, changes, untracked⟩ := submodule
  · decide
  · revert commit changes untracked
    decide

theorem Tracked.before_plain {count : Nat} {kind : UInt8} {entry : Tracked count}
    (known : kind ≠ 0 ∧ kind ≠ 32) : ∀ field ∈ entry.before kind, 0 ∉ field ∧ 32 ∉ field := by
  intro field mem
  obtain rfl | rest := List.mem_cons.mp mem
  · simp [known.1.symm, known.2.symm]
  obtain rfl | rest := List.mem_cons.mp rest
  · exact entry.statuses
  obtain rfl | rest := List.mem_cons.mp rest
  · exact ⟨(submoduleText_spec _).1, (submoduleText_spec _).2.1⟩
  · exact entry.plain field rest

theorem Tracked.recordParts {count : Nat} {kind : UInt8} {entry : Tracked count}
    (known : kind ≠ 0 ∧ kind ≠ 32) :
    recordParts (count + 4) (entry.string kind) = .ok (entry.before kind ++ [entry.path.bytes]) := by
  have length : (entry.before kind).length = count + 3 := by simp [before, entry.length]
  have split := @splitN_terminated (entry.before kind) entry.path.bytes
    fun field mem => (before_plain known field mem).2
  rw [length] at split
  rw [Git.recordParts, string, split]
  have four := (submoduleText_spec entry.submodule).2.2.1
  simp [before, four, entry.length, bind, Except.bind, pure, Except.pure]

theorem Tracked.trackedChange {count : Nat} {kind : UInt8} {entry : Tracked count} {conflict : Bool}
    {originalPath : Option GitPath} :
    trackedChange (entry.before kind ++ [entry.path.bytes]) conflict originalPath =
      .ok (entry.change conflict originalPath) := by
  obtain ⟨whole, -, -, first⟩ := submoduleText_spec entry.submodule
  have read := text_bytesOf whole
  have part : (entry.before kind ++ [entry.path.bytes]).getD 2 [] =
      bytesOf (submoduleText entry.submodule) := rfl
  rw [Git.trackedChange, List.getLast?_append_of_ne_nil _ (by simp)]
  simp only [part, first, List.getLast?_singleton, Option.getD_some, fromBytes_bytes]
  cases flags : entry.submodule with
  | none => simp [change, flags, before, bind, Except.bind, pure, Except.pure]
  | some flags =>
    rw [flags] at read
    simp [change, flags, before, read, bind, Except.bind, pure, Except.pure, Except.map]

/-! ## One record after another -/

/-- What a record does to what was parsed so far. -/
def Porcelain.after (parsed : Porcelain) (record : Record) : Porcelain where
  entries := parsed.entries ++ record.change.toList
  upstream := record.branch.or parsed.upstream
  ahead := (record.commits.map Prod.fst).or parsed.ahead
  behind := (record.commits.map Prod.snd).or parsed.behind

theorem isPrefixOf?_of_not {start bytes : List UInt8} (other : ¬ start <+: bytes) :
    start.isPrefixOf? bytes = none := by
  cases found : start.isPrefixOf? bytes with
  | none => rfl
  | some rest =>
    exact absurd ⟨rest, List.isPrefixOf?_eq_some_iff_append_eq.mp found⟩ other

/-- Neither of the known headers begins like the other. -/
theorem not_both {first second bytes : List UInt8} (other : ¬ second <+: first)
    (shorter : second.length ≤ first.length) : ¬ second <+: first ++ bytes := fun begins =>
  other (List.prefix_of_prefix_length_le begins (List.prefix_append _ _) shorter)

theorem header_upstream {parsed : Porcelain} {known : Upstream} :
    header parsed (bytesOf "# branch.upstream " ++ bytesOf known.name) =
      .ok (parsed.after (.upstream known)) := by
  have found : (bytesOf "# branch.upstream ").isPrefixOf?
      (bytesOf "# branch.upstream " ++ bytesOf known.name) = some (bytesOf known.name) :=
    List.isPrefixOf?_eq_some_iff_append_eq.mpr rfl
  have none_ : (bytesOf "# branch.ab ").isPrefixOf?
      (bytesOf "# branch.upstream " ++ bytesOf known.name) = none :=
    isPrefixOf?_of_not (not_both (by decide) (by decide))
  simp [header, found, none_, text_bytesOf known.whole, Porcelain.after, Record.change,
    Record.branch, Record.commits, bind, Except.bind, pure, Except.pure]

theorem header_counts {parsed : Porcelain} {known : Counts} :
    header parsed (bytesOf "# branch.ab " ++ bytesOf known.value) =
      .ok (parsed.after (.counts known)) := by
  have found : (bytesOf "# branch.ab ").isPrefixOf?
      (bytesOf "# branch.ab " ++ bytesOf known.value) = some (bytesOf known.value) :=
    List.isPrefixOf?_eq_some_iff_append_eq.mpr rfl
  have none_ : (bytesOf "# branch.upstream ").isPrefixOf?
      (bytesOf "# branch.ab " ++ bytesOf known.value) = none := by
    refine isPrefixOf?_of_not fun begins => ?_
    have shorter : bytesOf "# branch.ab " <+: bytesOf "# branch.upstream " :=
      List.prefix_of_prefix_length_le (List.prefix_append _ _) begins (by decide)
    exact absurd shorter (by decide)
  obtain ⟨more, words⟩ := known.words
  have ahead := parseU64_toDigits known.bounded.1
  have behind := parseU64_toDigits known.bounded.2
  simp [header, found, none_, text_bytesOf known.whole, words, branchCount, stripSign, context,
    ahead, behind, Porcelain.after, Record.change, Record.branch, Record.commits, bind, Except.bind,
    pure, Except.pure]

theorem header_other {parsed : Porcelain} {known : OtherHeader} :
    header parsed (35 :: known.bytes) = .ok (parsed.after (.other known)) := by
  simp [header, isPrefixOf?_of_not known.unknown.1, isPrefixOf?_of_not known.unknown.2,
    Porcelain.after, Record.change, Record.branch, Record.commits, bind, Except.bind, pure,
    Except.pure]

namespace Porcelain

/-- A record that begins with `#` is a header. -/
theorem records_header {parsed next : Porcelain} {bytes : List UInt8} {rest : List (List UInt8)}
    (read : header parsed bytes = .ok next) (begins : bytes.head? = some 35) :
    parsed.records (bytes :: rest) = next.records rest := by
  have some_ : bytes.isEmpty = false := by
    cases bytes with
    | nil => cases begins
    | cons => rfl
  simp [records, some_, begins, read, bind, Except.bind]

theorem records_untracked {parsed : Porcelain} {mark : UInt8} {path : GitPath} {directory : Bool}
    {rest : List (List UInt8)} (known : mark = 63 ∨ mark = 33) :
    parsed.records ((mark :: 32 :: (path.bytes ++ directoryMark directory)) :: rest) =
      (parsed.with_ (otherChange path)).records rest := by
  have begins : ((bytesOf "? ").isPrefixOf (mark :: 32 :: (path.bytes ++ directoryMark directory)) ||
      (bytesOf "! ").isPrefixOf (mark :: 32 :: (path.bytes ++ directoryMark directory))) = true := by
    have question : bytesOf "? " = [63, 32] := by decide
    have exclamation : bytesOf "! " = [33, 32] := by decide
    rw [question, exclamation]
    obtain rfl | rfl := known <;> simp [List.isPrefixOf]
  have noHeader : mark ≠ 35 := by
    obtain rfl | rfl := known <;> decide
  simp only [records, begins]
  simp [noHeader, untrackedChange, unmarked_directoryMark, fromBytes_bytes, otherChange, bind,
    Except.bind, pure, Except.pure]

/-- A record of a tracked file is read by its kind. -/
theorem records_tracked {parsed : Porcelain} {kind : UInt8} {count : Nat} {entry : Tracked count}
    {conflict renamed : Bool} {rest : List (List UInt8)}
    (known : ∀ bytes, recordKind (kind :: bytes) = .ok (count + 4, conflict, renamed))
    (letter : kind = 49 ∨ kind = 50 ∨ kind = 117) :
    parsed.records (entry.string kind :: rest) =
      if renamed then
        match rest with
        | [] => .error "incomplete rename record"
        | original :: rest => do
          let original ← GitPath.fromBytes original
          (parsed.with_ (entry.change conflict (some original))).records rest
      else (parsed.with_ (entry.change conflict none)).records rest := by
  have plain : kind ≠ 0 ∧ kind ≠ 32 := by
    obtain rfl | rfl | rfl := letter <;> decide
  have begins : ∃ bytes, entry.string kind = kind :: 32 :: bytes := ⟨_, rfl⟩
  obtain ⟨bytes, same⟩ := begins
  have parts := @Tracked.recordParts _ _ entry plain
  have noMark : ((bytesOf "? ").isPrefixOf (kind :: 32 :: bytes) ||
      (bytesOf "! ").isPrefixOf (kind :: 32 :: bytes)) = false := by
    have question : bytesOf "? " = [63, 32] := by decide
    have exclamation : bytesOf "! " = [33, 32] := by decide
    rw [question, exclamation]
    obtain rfl | rfl | rfl := letter <;> simp [List.isPrefixOf]
  have noHeader : kind ≠ 35 := by
    obtain rfl | rfl | rfl := letter <;> decide
  rw [same] at parts ⊢
  simp only [records, noMark, known, parts]
  cases renamed with
  | false => simp [noHeader, Tracked.trackedChange, bind, Except.bind]
  | true =>
    cases rest with
    | nil => simp [noHeader]
    | cons original rest => simp [noHeader, Tracked.trackedChange, bind, Except.bind]

theorem records_item (parsed : Porcelain) (record : Record) (rest : List (List UInt8)) :
    parsed.records (record.strings ++ rest) = (parsed.after record).records rest := by
  cases record with
  | upstream known =>
    exact records_header header_upstream (by
      rw [List.head?_append_of_ne_nil _ (by decide)]
      decide)
  | counts known =>
    exact records_header header_counts (by
      rw [List.head?_append_of_ne_nil _ (by decide)]
      decide)
  | other known => exact records_header header_other rfl
  | ordinary entry =>
    exact @records_tracked parsed 49 5 entry false false rest (fun _ => rfl) (.inl rfl)
  | renamed entry original =>
    have read := @records_tracked parsed 50 6 entry false true (original.bytes :: rest)
      (fun _ => rfl) (.inr (.inl rfl))
    simp only [fromBytes_bytes] at read
    exact read
  | unmerged entry =>
    exact @records_tracked parsed 117 7 entry true false rest (fun _ => rfl) (.inr (.inr rfl))
  | untracked path directory => exact records_untracked (.inl rfl)
  | ignored path directory => exact records_untracked (.inr rfl)

/-- The second half of a rename is missing. -/
theorem records_part (parsed : Porcelain) (record : Record) (count : Nat) (some_ : 0 < count)
    (part : count < record.strings.length) :
    ∃ error, parsed.records (record.strings.take count ++ [[]]) = .error error := by
  cases record with
  | renamed entry original =>
    obtain rfl : count = 1 := by
      simp only [Record.strings, List.length_cons, List.length_nil] at part
      omega
    have read := @records_tracked parsed 50 6 entry false true [[]] (fun _ => rfl) (.inr (.inl rfl))
    exact ⟨_, read⟩
  | _ =>
    simp only [Record.strings, List.length_cons, List.length_nil] at part
    omega

end Porcelain

def statusFormat : Format UInt8 Record Porcelain String where
  strings := Record.strings
  apply := Porcelain.after
  read parsed strings := parsed.records (strings ++ [[]])
  item parsed record rest := by
    rw [List.append_assoc]
    exact parsed.records_item record _
  ended parsed := rfl
  part := Porcelain.records_part

theorem foldl_after {parsed : Porcelain} {records : List Record} :
    records.foldl Porcelain.after parsed =
      { entries := parsed.entries ++ (reported records).entries
        upstream := (reported records).upstream.or parsed.upstream
        ahead := (reported records).ahead.or parsed.ahead
        behind := (reported records).behind.or parsed.behind } := by
  induction records using List.reverseRecOn with
  | nil => simp [reported]
  | append_singleton records record inductionHypothesis =>
    rw [List.foldl_append, inductionHypothesis]
    cases record <;>
      simp [Porcelain.after, reported, Record.change, Record.branch, Record.commits]

/-- No string of a record has a terminator. -/
theorem Record.whole (record : Record) : ∀ string ∈ record.strings, 0 ∉ string := by
  have tracked {count : Nat} {kind : UInt8} (entry : Tracked count) (known : kind ≠ 0 ∧ kind ≠ 32) :
      0 ∉ entry.string kind := by
    intro mem
    obtain front | path := List.mem_append.mp mem
    · exact Logic.not_mem_terminated (by decide)
        (fun field mem => (Tracked.before_plain known field mem).1) front
    · exact entry.path.plain.2.1 path
  have marked {mark : UInt8} (path : GitPath) (directory : Bool) (known : mark ≠ 0) :
      0 ∉ mark :: 32 :: (path.bytes ++ directoryMark directory) := by
    have plain := path.plain.2.1
    cases directory <;> simp [directoryMark, plain, known.symm]
  intro string mem
  cases record with
  | upstream header =>
    obtain rfl := List.mem_singleton.mp mem
    rw [List.mem_append, not_or]
    exact ⟨by decide, header.whole⟩
  | counts header =>
    obtain rfl := List.mem_singleton.mp mem
    rw [List.mem_append, not_or]
    exact ⟨by decide, header.whole⟩
  | other header =>
    obtain rfl := List.mem_singleton.mp mem
    simpa using header.whole
  | ordinary entry => exact List.mem_singleton.mp mem ▸ tracked entry (by decide)
  | renamed entry original =>
    obtain rfl | later := List.mem_cons.mp mem
    · exact tracked entry (by decide)
    · exact List.mem_singleton.mp later ▸ original.plain.2.1
  | unmerged entry => exact List.mem_singleton.mp mem ▸ tracked entry (by decide)
  | untracked path directory =>
    exact List.mem_singleton.mp mem ▸ marked path directory (by decide)
  | ignored path directory =>
    exact List.mem_singleton.mp mem ▸ marked path directory (by decide)

/-- An answer that does not end with a terminator. -/
theorem not_ended {bytes : List UInt8} (some_ : bytes ≠ []) (open_ : bytes.getLast? ≠ some 0) :
    (bytes.isEmpty || bytes.getLast? == some 0) = false := by
  simp [some_, open_]

theorem ended_terminated (strings : List (List UInt8)) :
    ((terminated 0 strings).isEmpty || (terminated 0 strings).getLast? == some 0) = true := by
  obtain none_ | last := @Logic.terminated_ends _ 0 strings
  · simp [none_]
  · simp [last]

theorem split_terminated {strings : List (List UInt8)} (whole : ∀ string ∈ strings, 0 ∉ string) :
    (terminated 0 strings).splitOn 0 = strings ++ [[]] := by
  have split := @Logic.splitOn_terminated _ 0 _ strings [] whole List.not_mem_nil
  rwa [List.append_nil] at split

theorem status_faithful : Logic.Faithful 0 Record.strings status reported := by
  have read := @statusFormat.faithful _ 0 _ _ _ status Porcelain.empty Record.whole
    (fun strings whole => by
      rw [status, ended_terminated, split_terminated whole]
      rfl)
    (fun bytes some_ open_ => by
      rw [status, not_ended some_ open_]
      exact ⟨_, rfl⟩)
  have value : (fun items => items.foldl statusFormat.apply Porcelain.empty) = reported := by
    funext records
    exact foldl_after.trans (by simp [Porcelain.empty])
  rwa [value] at read

/-! ## The raw diff -/

/-- The text of an object id. -/
structure Hex where
  value : String
  valid : isObjectId value = true

def Hex.id (hex : Hex) : ObjectId := ⟨asciiLowercase hex.value, hex.value, hex.valid, rfl⟩

/-- An entry of a raw diff; the status of one that is no rename has a letter other than `R`, `C`. -/
structure RawEntry where
  oldMode : List UInt8
  newMode : List UInt8
  oldId : Hex
  newId : Hex
  status : UInt8
  score : List UInt8
  path : GitPath
  modes : (0 ∉ oldMode ∧ 32 ∉ oldMode) ∧ 0 ∉ newMode ∧ 32 ∉ newMode
  letter : 0 ∉ status :: score ∧ 32 ∉ status :: score
  noRename : status ≠ 82 ∧ status ≠ 67

def RawEntry.fields (entry : RawEntry) : List (List UInt8) :=
  [entry.oldMode, entry.newMode, bytesOf entry.oldId.value, bytesOf entry.newId.value]

def RawEntry.strings (entry : RawEntry) : List (List UInt8) :=
  [58 :: (terminated 32 entry.fields ++ entry.status :: entry.score), entry.path.bytes]

def RawEntry.change (entry : RawEntry) : GitChange where
  path := entry.path
  originalPath := none
  indexStatus := charOf entry.status
  worktreeStatus := '.'
  conflict := entry.status == 85
  untracked := false
  submodule := if entry.oldMode == bytesOf "160000" || entry.newMode == bytesOf "160000" then
    some "S..." else none

theorem isPrinted_of_isAsciiHexdigit {char : Char} (digit : isAsciiHexdigit char = true) :
    isPrinted char = true := by
  simp only [isAsciiHexdigit, Bool.or_eq_true, Bool.and_eq_true, decide_eq_true_eq,
    Char.le_def, UInt32.le_iff_toNat_le] at digit
  simp only [isPrinted, Bool.and_eq_true, decide_eq_true_eq, Char.toNat]
  have codes : '0'.val.toNat = 48 ∧ '9'.val.toNat = 57 ∧ 'a'.val.toNat = 97 ∧ 'f'.val.toNat = 102 ∧
      'A'.val.toNat = 65 ∧ 'F'.val.toNat = 70 := by decide
  omega

theorem Hex.printed (hex : Hex) : ∀ char ∈ hex.value.toList, isPrinted char = true := by
  have valid := hex.valid
  simp only [isObjectId, Bool.and_eq_true, List.all_eq_true] at valid
  exact fun char mem => isPrinted_of_isAsciiHexdigit (valid.2 char mem)

theorem Hex.plain (hex : Hex) : 0 ∉ bytesOf hex.value ∧ 32 ∉ bytesOf hex.value :=
  not_mem_bytesOf hex.printed

theorem Hex.parse (hex : Hex) : ObjectId.parse hex.value = .ok hex.id := by
  rw [ObjectId.parse, dif_pos hex.valid]
  rfl

theorem RawEntry.plain (entry : RawEntry) : ∀ field ∈ entry.fields, 0 ∉ field ∧ 32 ∉ field := by
  simp only [fields, List.forall_mem_cons, List.not_mem_nil, false_implies, implies_true, and_true]
  exact ⟨entry.modes.1, entry.modes.2, entry.oldId.plain, entry.newId.plain⟩

theorem charOf_eq {byte other : UInt8} (same : charOf byte = charOf other) : byte = other := by
  have code (byte : UInt8) : (charOf byte).toNat = byte.toNat := by
    have small := byte.toNat_lt
    have valid : byte.toNat.isValidChar := .inl (by omega)
    rw [charOf, Char.ofNat, dif_pos valid]
    rfl
  exact UInt8.toNat_inj.mp ((code byte).symm.trans ((congrArg Char.toNat same).trans (code other)))

theorem rawMetadata_entry (entry : RawEntry) :
    rawMetadata (58 :: (terminated 32 entry.fields ++ entry.status :: entry.score)) =
      .ok (charOf entry.status,
        entry.oldMode == bytesOf "160000" || entry.newMode == bytesOf "160000") := by
  have split := Logic.splitOn_terminated (fun field mem => (entry.plain field mem).2) entry.letter.2
  have first := text_bytesOf entry.oldId.plain.1
  have second := text_bytesOf entry.newId.plain.1
  have rename : (charOf entry.status != 'R' && charOf entry.status != 'C') = true := by
    rw [Bool.and_eq_true, bne_iff_ne, bne_iff_ne]
    exact ⟨fun same => entry.noRename.1 (@charOf_eq _ 82 same),
      fun same => entry.noRename.2 (@charOf_eq _ 67 same)⟩
  simp only [rawMetadata, List.drop_one, List.tail_cons, split]
  simp only [RawEntry.fields, List.cons_append, List.nil_append, List.length_cons, List.length_nil,
    List.getD_cons_succ, List.getD_cons_zero, List.headD_cons, rename]
  simp [first, second, Hex.parse, bind, Except.bind, pure, Except.pure]

theorem rawRecords_item (entries : List GitChange) (entry : RawEntry) (rest : List (List UInt8)) :
    rawRecords entries (entry.strings ++ rest) = rawRecords (entries ++ [entry.change]) rest := by
  have conflict : (charOf entry.status == 'U') = (entry.status == 85) := by
    rw [Bool.eq_iff_iff, beq_iff_eq, beq_iff_eq]
    exact ⟨fun same => @charOf_eq _ 85 same, fun same => same ▸ rfl⟩
  simp only [RawEntry.strings, List.cons_append, List.nil_append, rawRecords, List.isEmpty_cons,
    rawMetadata_entry, fromBytes_bytes, conflict]
  rfl

def rawFormat : Format UInt8 RawEntry (List GitChange) String where
  strings := RawEntry.strings
  apply entries entry := entries ++ [entry.change]
  read entries strings := rawRecords entries (strings ++ [[]])
  item entries entry rest := by
    rw [List.append_assoc]
    exact rawRecords_item entries entry _
  ended entries := rfl
  part entries entry count some_ part := by
    -- The path is missing behind the metadata.
    obtain rfl : count = 1 := by
      simp only [RawEntry.strings, List.length_cons, List.length_nil] at part
      omega
    simp only [RawEntry.strings, List.take_succ_cons, List.take_zero, List.cons_append,
      List.nil_append, rawRecords, List.isEmpty_cons, rawMetadata_entry]
    exact ⟨_, rfl⟩

theorem RawEntry.whole (entry : RawEntry) : ∀ string ∈ entry.strings, 0 ∉ string := by
  have fields : 0 ∉ terminated 32 entry.fields :=
    Logic.not_mem_terminated (by decide) fun field mem => (entry.plain field mem).1
  intro string mem
  obtain rfl | path := List.mem_cons.mp mem
  · simp only [List.mem_cons, List.mem_append, not_or]
    exact ⟨by decide, fields, by simpa using entry.letter.1⟩
  · exact List.mem_singleton.mp path ▸ entry.path.plain.2.1

theorem foldl_push {Item Value : Type} {value : Item → Value} {items : List Item}
    {values : List Value} :
    items.foldl (fun values item => values ++ [value item]) values = values ++ items.map value := by
  induction items generalizing values with
  | nil => simp
  | cons item items inductionHypothesis => simp [inductionHypothesis]

theorem rawDiff_faithful :
    Logic.Faithful 0 RawEntry.strings rawDiff (List.map RawEntry.change) := by
  have read := @rawFormat.faithful _ 0 _ _ _ rawDiff [] RawEntry.whole
    (fun strings whole => by
      rw [rawDiff, ended_terminated, split_terminated whole]
      rfl)
    (fun bytes some_ open_ => by
      rw [rawDiff, not_ended some_ open_]
      exact ⟨_, rfl⟩)
  have value : (List.foldl rawFormat.apply []) = List.map RawEntry.change := by
    funext entries
    exact foldl_push.trans (List.nil_append _)
  exact value ▸ read

/-! ## History -/

/-- A commit of the history. -/
structure Row where
  oid : Hex
  parents : List Hex
  author : List UInt8
  authoredAt : Int
  subject : List UInt8
  bounded : -2 ^ 63 ≤ authoredAt ∧ authoredAt < 2 ^ 63
  whole : 0 ∉ author ∧ 0 ∉ subject

def Row.strings (row : Row) : List (List UInt8) :=
  [bytesOf row.oid.value, bytesOf (joined (row.parents.map Hex.value)), row.author,
    bytesOf (String.ofList (decimal row.authoredAt)), row.subject]

def Row.summary (escapeDebug : Char → List Char) (row : Row) : CommitSummary where
  oid := row.oid.id
  parents := row.parents.map Hex.id
  author := displayBytes escapeDebug row.author
  authoredAt := row.authoredAt
  subject := displayBytes escapeDebug row.subject

theorem Hex.words (parents : List Hex) :
    0 ∉ bytesOf (joined (parents.map Hex.value)) ∧
      splitWhitespace (joined (parents.map Hex.value)) = parents.map Hex.value := by
  constructor
  · refine not_mem_of_text fun char mem => ?_
    obtain blank | ⟨word, known, inside⟩ := mem_joined mem
    · exact .inr blank
    · obtain ⟨hex, -, rfl⟩ := List.mem_map.mp known
      exact .inl (hex.printed char inside)
  · refine splitWhitespace_joined fun word mem => ?_
    obtain ⟨hex, -, rfl⟩ := List.mem_map.mp mem
    refine ⟨fun empty => ?_, hex.printed⟩
    have valid := hex.valid
    rw [empty] at valid
    exact absurd valid (by decide)

theorem mapM_parse (parents : List Hex) :
    (parents.map Hex.value).mapM ObjectId.parse = .ok (parents.map Hex.id) := by
  induction parents with
  | nil => rfl
  | cons hex parents inductionHypothesis =>
    rw [List.map_cons, List.mapM_cons, hex.parse]
    simp only [bind, Except.bind, inductionHypothesis]
    rfl

theorem Row.whole_strings (row : Row) : ∀ string ∈ row.strings, 0 ∉ string := by
  have date : 0 ∉ bytesOf (String.ofList (decimal row.authoredAt)) ∧ _ := not_mem_bytesOf
    fun char mem => isPrinted_of_mem_decimal (String.toList_ofList ▸ mem)
  simp only [strings, List.forall_mem_cons, List.not_mem_nil, false_implies, implies_true, and_true]
  exact ⟨row.oid.plain.1, (Hex.words row.parents).1, row.whole.1, date.1, row.whole.2⟩

theorem historyRow_strings {escapeDebug : Char → List Char} (row : Row) :
    historyRow escapeDebug (bytesOf row.oid.value) (bytesOf (joined (row.parents.map Hex.value)))
      row.author (bytesOf (String.ofList (decimal row.authoredAt))) row.subject =
      .ok (row.summary escapeDebug) := by
  have whole := row.whole_strings
  simp only [Row.strings, List.forall_mem_cons] at whole
  rw [historyRow, text_bytesOf whole.1, text_bytesOf whole.2.1, text_bytesOf whole.2.2.2.1]
  simp only [bind, Except.bind, Hex.parse, (Hex.words row.parents).2, mapM_parse,
    parseI64_decimal row.bounded]
  rfl

/-- What `history` does with the fields. -/
def readRows (escapeDebug : Char → List Char) (rows : List CommitSummary)
    (fields : List (List UInt8)) : Result (List CommitSummary) := do
  ensure (fields.length % 5 == 0) "invalid history field count"
  let more ← historyRows escapeDebug fields
  return rows ++ more

theorem readRows_item {escapeDebug : Char → List Char} (rows : List CommitSummary) (row : Row)
    (rest : List (List UInt8)) :
    readRows escapeDebug rows (row.strings ++ rest) =
      readRows escapeDebug (rows ++ [row.summary escapeDebug]) rest := by
  have length : (row.strings ++ rest).length % 5 = rest.length % 5 := by
    simp only [Row.strings, List.length_append, List.length_cons, List.length_nil]
    omega
  rw [readRows, readRows, length]
  simp only [Row.strings, List.cons_append, List.nil_append, historyRows, historyRow_strings]
  cases ensure (rest.length % 5 == 0) "invalid history field count" with
  | error => rfl
  | ok =>
    cases historyRows escapeDebug rest with
    | error => rfl
    | ok more => simp [bind, Except.bind, pure, Except.pure]

def historyFormat (escapeDebug : Char → List Char) :
    Format UInt8 Row (List CommitSummary) String where
  strings := Row.strings
  apply rows row := rows ++ [row.summary escapeDebug]
  read := readRows escapeDebug
  item := readRows_item
  ended rows := by simp [readRows, historyRows, bind, Except.bind, pure, Except.pure]
  part rows row count some_ part := by
    -- Less than five fields are no row.
    have length : (row.strings.take count).length = count := List.length_take_of_le (by omega)
    have few : (row.strings.take count).length % 5 ≠ 0 := by
      have five : row.strings.length = 5 := rfl
      omega
    refine ⟨"invalid history field count", ?_⟩
    rw [readRows, beq_false_of_ne few]
    rfl

theorem history_terminated {escapeDebug : Char → List Char} {strings : List (List UInt8)}
    (whole : ∀ string ∈ strings, 0 ∉ string) :
    history escapeDebug (terminated 0 strings) = readRows escapeDebug [] strings := by
  obtain rfl | ⟨front, last, rfl⟩ := List.eq_nil_or_concat strings
  · simp [history, readRows, historyRows, bind, Except.bind, pure, Except.pure]
  · rw [List.concat_eq_append] at whole ⊢
    have plain := List.forall_mem_append.mp whole
    have split := Logic.splitOn_terminated plain.1 (plain.2 last List.mem_cons_self)
    have same : terminated 0 (front ++ [last]) = (terminated 0 front ++ last) ++ [0] := by
      simp [Logic.terminated_append]
    rw [history, readRows, same, List.dropLast_concat, split]
    simp
    rfl

theorem history_faithful {escapeDebug : Char → List Char} :
    Logic.Faithful 0 Row.strings (history escapeDebug) (List.map (Row.summary escapeDebug)) := by
  have read := @(historyFormat escapeDebug).faithful _ 0 _ _ _ (history escapeDebug) []
    Row.whole_strings (fun strings whole => history_terminated whole)
    (fun bytes some_ open_ => by
      have ended : (bytes.getLast? == some 0) = false := beq_false_of_ne open_
      rw [history, if_neg (by simpa using some_), ended]
      exact ⟨_, rfl⟩)
  have value : List.foldl (historyFormat escapeDebug).apply [] =
      List.map (Row.summary escapeDebug) := by
    funext rows
    exact foldl_push.trans (List.nil_append _)
  exact value ▸ read

/-! ## The three answers -/

/-- Every list of records is read back as what it says, whatever bytes the paths have; an answer
that is cut is read as the records in front of the cut when the cut is between two of them, and
refused when it is not. -/
theorem porcelain_exact (escapeDebug : Char → List Char) :
    Logic.Faithful 0 Record.strings status reported ∧
      Logic.Faithful 0 RawEntry.strings rawDiff (List.map RawEntry.change) ∧
      Logic.Faithful 0 Row.strings (history escapeDebug) (List.map (Row.summary escapeDebug)) :=
  ⟨status_faithful, rawDiff_faithful, history_faithful⟩

/-- A header whose upstream branch is no UTF-8 has the whole status refused. -/
theorem porcelain_upstream : ∃ record : List UInt8, record.head? = some 35 ∧ 0 ∉ record ∧
    ¬ ∃ parsed, status (terminated 0 [record]) = .ok parsed := by
  refine ⟨bytesOf "# branch.upstream " ++ [255], by decide, by decide, ?_⟩
  rintro ⟨parsed, read⟩
  have refused : status (terminated 0 [bytesOf "# branch.upstream " ++ [255]]) =
      .error "Git returned an unsupported text field" := by decide
  cases refused.symm.trans read

/-- The counts as Git writes them. -/
theorem counts_written {ahead behind : Nat} (bounded : ahead < 2 ^ 64 ∧ behind < 2 ^ 64) :
    ∃ header : Counts, header.ahead = ahead ∧ header.behind = behind ∧
      header.value = joined [String.ofList ('+' :: Nat.toDigits 10 ahead),
        String.ofList ('-' :: Nat.toDigits 10 behind)] := by
  have printed (sign : Char) (count : Nat) (known : isPrinted sign = true) :
      String.ofList (sign :: Nat.toDigits 10 count) ≠ "" ∧
        ∀ char ∈ (String.ofList (sign :: Nat.toDigits 10 count)).toList, isPrinted char = true := by
    constructor
    · intro empty
      have chars := congrArg String.toList empty
      rw [String.toList_ofList] at chars
      cases chars
    · intro char mem
      rw [String.toList_ofList] at mem
      obtain rfl | digit := List.mem_cons.mp mem
      · exact known
      · exact isPrinted_of_isDigit (isDigit_of_mem_toDigits digit)
  have both : ∀ word ∈ [String.ofList ('+' :: Nat.toDigits 10 ahead),
      String.ofList ('-' :: Nat.toDigits 10 behind)],
      word ≠ "" ∧ ∀ char ∈ word.toList, isPrinted char = true := by
    simp only [List.forall_mem_cons, List.not_mem_nil, false_implies, implies_true, and_true]
    exact ⟨printed '+' ahead (by decide), printed '-' behind (by decide)⟩
  refine ⟨⟨_, ahead, behind, ?_, ⟨[], splitWhitespace_joined both⟩, bounded⟩, rfl, rfl, rfl⟩
  refine not_mem_of_text fun char mem => ?_
  obtain blank | ⟨word, known, inside⟩ := mem_joined mem
  · exact .inr blank
  · exact .inl ((both word known).2 char inside)

end Idk.Git
