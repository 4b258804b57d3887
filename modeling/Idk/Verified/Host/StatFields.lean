import Idk.Host.Inventory
import Idk.Verified.Git.Texts
import Mathlib

/-!
# The fields of a process status

**Main result:** `parseStatFields_exact`: of a line as the kernel writes it the parent and the
session are read, whatever the process has made of its name; of any other bytes nothing is read
but the second and the fourth word behind their last `") "`.
-/

namespace Idk.Host

/-! ## The last delimiter -/

/-- What follows the name is where no further delimiter stands. -/
theorem afterComm_none {bytes : List UInt8} :
    afterComm bytes = none ↔ ¬[0x29, 0x20] <:+: bytes := by
  induction bytes with
  | nil => simp [afterComm]
  | cons byte rest inductionHypothesis =>
    have starts : [0x29, 0x20] <+: byte :: rest ↔ byte = 0x29 ∧ rest.head? = some 0x20 := by
      cases rest with
      | nil => simp
      | cons next rest => simp [List.cons_prefix_cons, eq_comm]
    rw [List.infix_cons_iff, starts, afterComm]
    cases behind : afterComm rest with
    | some tail => simp_all
    | none => simp_all

theorem afterComm_some {bytes tail : List UInt8} :
    afterComm bytes = some tail ↔
      (∃ before, bytes = before ++ 0x29 :: 0x20 :: tail) ∧ ¬[0x29, 0x20] <:+: tail := by
  constructor
  · intro found
    induction bytes with
    | nil => cases found
    | cons byte rest inductionHypothesis =>
      rw [afterComm] at found
      cases behind : afterComm rest with
      | some later =>
        rw [behind] at found
        cases found
        obtain ⟨⟨before, rfl⟩, last⟩ := inductionHypothesis behind
        exact ⟨⟨byte :: before, rfl⟩, last⟩
      | none =>
        rw [behind] at found
        simp only [Option.ite_none_right_eq_some, Option.some.injEq] at found
        obtain ⟨⟨rfl, head⟩, rfl⟩ := found
        obtain ⟨next, rfl⟩ := List.head?_eq_some_iff.mp head
        have none_ := afterComm_none.mp behind
        exact ⟨⟨[], rfl⟩, fun inside => none_ (List.infix_cons inside)⟩
  · rintro ⟨⟨before, rfl⟩, last⟩
    have none_ : afterComm (0x20 :: tail) = none := by
      rw [afterComm_none, List.infix_cons_iff]
      rintro (starts | inside)
      · exact absurd (List.cons_prefix_cons.mp starts).1 (by decide)
      · exact last inside
    induction before with
    | nil => simp [afterComm, afterComm_none.mpr last]
    | cons byte before inductionHypothesis =>
      rw [List.cons_append, afterComm, inductionHypothesis]

/-! ## Words -/

theorem words_word {word front rest : List Char} (some_ : front ++ word ≠ [])
    (plain : ∀ char ∈ word, isWhitespace char = false)
    (ends : ∀ char ∈ rest.head?, isWhitespace char = true) :
    words front (word ++ rest) = (front ++ word) :: words [] rest := by
  induction word generalizing front with
  | nil =>
    rw [List.append_nil] at some_
    cases rest with
    | nil => simp [words, some_]
    | cons blank rest => simp [words, some_, ends blank rfl]
  | cons char word inductionHypothesis =>
    have inside : isWhitespace char = false := plain char List.mem_cons_self
    have later := @inductionHypothesis (front ++ [char]) (by simp)
      fun other mem => plain other (List.mem_cons_of_mem _ mem)
    rw [List.cons_append, words, inside]
    simpa using later

theorem words_blank {blank : Char} {rest : List Char} (white : isWhitespace blank = true) :
    words [] (blank :: rest) = words [] rest := by
  simp [words, white]

/-! ## Numbers -/

theorem parseDigits_toDigits (value : Nat) : parseDigits (Nat.toDigits 10 value) = some value := by
  have digits : (Nat.toDigits 10 value).all Char.isDigit = true :=
    List.all_eq_true.mpr fun _ mem => Git.isDigit_of_mem_toDigits mem
  have number := @Nat.ofDigitChars_toDigits 10 value (by decide) (by decide)
  rw [Nat.ofDigitChars_eq_foldl] at number
  rw [parseDigits, if_pos ⟨Nat.toDigits_ne_nil, digits⟩, number]

/-- What `pid_t` holds. -/
def InRange (pid : Pid) : Prop := -2147483648 ≤ pid ∧ pid ≤ 2147483647

theorem parsePid_decimal {pid : Pid} (ranged : InRange pid) :
    parsePid (Git.decimal pid) = some pid := by
  have signed : parseSigned (Git.decimal pid) = some pid := by
    cases pid with
    | negSucc value =>
      rw [Git.decimal, parseSigned, parseDigits_toDigits]
      rfl
    | ofNat value =>
      have read := parseDigits_toDigits value
      rw [Git.decimal]
      cases digits : Nat.toDigits 10 value with
      | nil => exact absurd digits Nat.toDigits_ne_nil
      | cons first rest =>
        have digit : first.isDigit = true :=
          Git.isDigit_of_mem_toDigits (digits ▸ List.mem_cons_self)
        rw [digits] at read
        unfold parseSigned
        split
        · rename_i minus
          cases minus
          exact absurd digit (by decide)
        · rename_i plus
          cases plus
          exact absurd digit (by decide)
        · rw [read]
          rfl
  obtain ⟨low, high⟩ := ranged
  rw [parsePid, signed]
  simp [low, high]

/-! ## The line of the kernel -/

theorem printed_of_isAlpha {char : Char} (letter : char.isAlpha = true) :
    Git.isPrinted char = true := by
  simp only [Char.isAlpha, Char.isUpper, Char.isLower, Bool.or_eq_true, Bool.and_eq_true,
    decide_eq_true_eq, UInt32.le_iff_toNat_le] at letter
  have code : char.toNat = char.val.toNat := rfl
  simp only [Git.isPrinted, Bool.and_eq_true, decide_eq_true_eq, code]
  have bounds : (65 ≤ char.val.toNat ∧ char.val.toNat ≤ 90) ∨
      97 ≤ char.val.toNat ∧ char.val.toNat ≤ 122 := letter
  omega

/-- What a numeric tail is made of. -/
def isNumeric (char : Char) : Bool := char.isDigit || char == '-' || char == ' ' || char == '\n'

/-- A line of `/proc/<pid>/stat`; the name is any bytes, the tail any numbers. -/
structure StatLine where
  pid : Pid
  comm : List UInt8
  state : Char
  parent : Pid
  group : Pid
  session : Pid
  rest : List Char
  letter : state.isAlpha = true
  parentRanged : InRange parent
  sessionRanged : InRange session
  numeric : ∀ char ∈ rest, isNumeric char = true
  apart : ∀ char ∈ rest.head?, isWhitespace char = true

namespace StatLine

variable (line : StatLine)

/-- What stands behind the name. -/
def tail : List Char :=
  line.state :: ' ' :: (Git.decimal line.parent ++ ' ' :: (Git.decimal line.group ++
    ' ' :: (Git.decimal line.session ++ line.rest)))

/-- `pid (comm) state ppid pgrp session ...`. -/
def bytes : List UInt8 :=
  Git.bytesOf (String.ofList (Git.decimal line.pid ++ [' ', '('])) ++ line.comm ++
    0x29 :: 0x20 :: Git.bytesOf (String.ofList line.tail)

/-- A letter and numbers hold no delimiter. -/
theorem mem_tail {char : Char} (mem : char ∈ line.tail) :
    Git.isPrinted char = true ∧ char ≠ ')' ∨ char = ' ' ∨ char = '\n' := by
  have decimal {value : Int} (mem : char ∈ Git.decimal value) :
      Git.isPrinted char = true ∧ char ≠ ')' := by
    refine ⟨Git.isPrinted_of_mem_decimal mem, ?_⟩
    rintro rfl
    cases value with
    | ofNat value => exact absurd (Git.isDigit_of_mem_toDigits mem) (by decide)
    | negSucc value =>
      obtain minus | digit := List.mem_cons.mp mem
      · exact absurd minus (by decide)
      · exact absurd (Git.isDigit_of_mem_toDigits digit) (by decide)
  simp only [tail, List.mem_cons, List.mem_append] at mem
  obtain rfl | rfl | mem | rfl | mem | rfl | mem | mem := mem
  · refine .inl ⟨printed_of_isAlpha line.letter, fun same => ?_⟩
    exact absurd (same ▸ line.letter) (by decide)
  · simp
  · exact .inl (decimal mem)
  · simp
  · exact .inl (decimal mem)
  · simp
  · exact .inl (decimal mem)
  · have known := line.numeric char mem
    simp only [isNumeric, Bool.or_eq_true, beq_iff_eq] at known
    obtain ((digit | rfl) | rfl) | rfl := known
    · refine .inl ⟨Git.isPrinted_of_isDigit digit, ?_⟩
      rintro rfl
      exact absurd digit (by decide)
    · exact .inl (by decide)
    · simp
    · simp

theorem not_mem_tail : 0x29 ∉ Git.bytesOf (String.ofList line.tail) := by
  rw [Git.bytesOf_eq, String.toList_ofList]
  intro mem
  obtain ⟨char, known, inside⟩ := List.mem_flatMap.mp mem
  obtain ⟨printed, other⟩ | rfl | rfl := line.mem_tail known
  · simp only [Git.isPrinted, Bool.and_eq_true, decide_eq_true_eq] at printed
    have code : 0x29 = char.toNat := Git.mem_encoded (by omega) inside
    exact other (Char.toNat_inj.mp code.symm)
  · exact absurd inside (by decide)
  · exact absurd inside (by decide)

theorem afterComm_bytes : afterComm line.bytes = some (Git.bytesOf (String.ofList line.tail)) :=
  afterComm_some.mpr ⟨⟨_, rfl⟩, fun inside =>
    line.not_mem_tail (inside.subset List.mem_cons_self)⟩

theorem words_tail : ∃ others, words [] line.tail = [line.state] :: Git.decimal line.parent ::
    Git.decimal line.group :: Git.decimal line.session :: others := by
  have blank : isWhitespace ' ' = true := by decide
  have number (value : Int) {rest : List Char}
      (ends : ∀ char ∈ rest.head?, isWhitespace char = true) :
      words [] (Git.decimal value ++ rest) = Git.decimal value :: words [] rest := by
    refine words_word ?_ (fun char mem =>
      Git.not_isWhitespace_of_isPrinted (Git.isPrinted_of_mem_decimal mem)) ends
    cases value with
    | ofNat value => exact Nat.toDigits_ne_nil
    | negSucc value => exact List.cons_ne_nil _ _
  have letter : words [] line.tail = [line.state] :: words [] line.tail.tail := by
    refine @words_word [line.state] [] line.tail.tail (by simp) (fun char mem => ?_)
      (by simp [tail, blank])
    rw [List.mem_singleton.mp mem]
    exact Git.not_isWhitespace_of_isPrinted (printed_of_isAlpha line.letter)
  refine ⟨words [] line.rest, ?_⟩
  rw [letter, tail, List.tail_cons, words_blank blank, number line.parent (by simp [blank]),
    words_blank blank, number line.group (by simp [blank]), words_blank blank,
    number line.session line.apart]

end StatLine

theorem take_four {list : List (List Char)} {state second group fourth : List Char} :
    list.take 4 = [state, second, group, fourth] ↔
      ∃ others, list = state :: second :: group :: fourth :: others := by
  constructor
  · intro taken
    refine ⟨list.drop 4, ?_⟩
    have whole := List.take_append_drop 4 list
    rw [taken] at whole
    exact whole.symm
  · rintro ⟨others, rfl⟩
    rfl

/-- The fields behind the last delimiter, and nothing else, are what is read. -/
theorem parseStatFields_ok {bytes : List UInt8} {parent session : Pid} :
    parseStatFields bytes = .ok (parent, session) ↔
      ∃ before tail text state second group fourth others,
        bytes = before ++ 0x29 :: 0x20 :: tail ∧ ¬[0x29, 0x20] <:+: tail ∧
        String.fromUTF8? ⟨tail.toArray⟩ = some text ∧
        words [] text.toList = state :: second :: group :: fourth :: others ∧
        parsePid second = some parent ∧ parsePid fourth = some session := by
  simp only [parseStatFields, decodeUtf8, bind_eq_ok, context_eq_ok, Option.map_eq_some_iff]
  constructor
  · rintro ⟨tail, found, chars, ⟨text, decoded, rfl⟩, read⟩
    obtain ⟨⟨before, split⟩, last⟩ := afterComm_some.mp found
    split at read
    · rename_i state second group fourth taken
      obtain ⟨others, fields⟩ := take_four.mp taken
      obtain ⟨_, known, read⟩ := bind_eq_ok.mp read
      obtain ⟨_, led, read⟩ := bind_eq_ok.mp read
      cases read
      exact ⟨before, tail, text, state, second, group, fourth, others, split, last, decoded,
        fields, context_eq_ok.mp known, context_eq_ok.mp led⟩
    · cases read
  · rintro ⟨before, tail, text, state, second, group, fourth, others, split, last, decoded,
      fields, known, led⟩
    refine ⟨tail, afterComm_some.mpr ⟨⟨before, split⟩, last⟩, _, ⟨text, decoded, rfl⟩, ?_⟩
    rw [take_four.mpr ⟨others, fields⟩]
    simp only [known, led, context]
    rfl

/-- A line gives its parent and its session, whatever stands in its name; other bytes give the
    second and the fourth word behind their last delimiter, or an error. -/
theorem parseStatFields_exact :
    (∀ line : StatLine, parseStatFields line.bytes = .ok (line.parent, line.session)) ∧
    ∀ (bytes : List UInt8) (parent session : Pid),
      parseStatFields bytes = .ok (parent, session) ↔
        ∃ before tail text state second group fourth others,
          bytes = before ++ 0x29 :: 0x20 :: tail ∧ ¬[0x29, 0x20] <:+: tail ∧
          String.fromUTF8? ⟨tail.toArray⟩ = some text ∧
          words [] text.toList = state :: second :: group :: fourth :: others ∧
          parsePid second = some parent ∧ parsePid fourth = some session := by
  refine ⟨fun line => ?_, fun bytes parent session => parseStatFields_ok⟩
  obtain ⟨⟨before, split⟩, last⟩ := afterComm_some.mp line.afterComm_bytes
  obtain ⟨others, fields⟩ := line.words_tail
  refine parseStatFields_ok.mpr ⟨before, _, String.ofList line.tail, [line.state], _,
    Git.decimal line.group, _, others, split, last, Git.fromUTF8?_bytesOf, ?_, parsePid_decimal line.parentRanged,
    parsePid_decimal line.sessionRanged⟩
  rw [String.toList_ofList]
  exact fields

/-- A name that imitates the fields of another session. -/
def imitating : StatLine where
  pid := 1234
  comm := [0x61, 0x29, 0x20, 0x53, 0x20, 0x31, 0x20, 0x31, 0x20, 0x31, 0xff]
  state := 'S'
  parent := 42
  group := 43
  session := -1
  rest := [' ', '4', '5']
  letter := by decide
  parentRanged := ⟨by decide, by decide⟩
  sessionRanged := ⟨by decide, by decide⟩
  numeric := List.all_eq_true.mp (by decide)
  apart := by simp [isWhitespace]

theorem parseStatFields_imitating : parseStatFields imitating.bytes = .ok (42, -1) :=
  parseStatFields_exact.1 imitating

end Idk.Host
