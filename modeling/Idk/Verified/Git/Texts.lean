import Idk.Git.Parse
import Mathlib.Data.List.Basic

/-!
# Texts in what Git prints

The bytes of a text are read as that text, words as the words they were written as, and the
decimal digits of a number as the number.
-/

namespace Idk.Git

/-! ## Texts -/

theorem bytesOf_eq {value : String} :
    bytesOf value = value.toList.flatMap String.utf8EncodeChar := by
  conv => lhs; rw [← String.ofList_toList (s := value)]
  rw [bytesOf, String.toByteArray_ofList, List.utf8Encode, List.toList_data_toByteArray]

theorem fromUTF8?_bytesOf {value : String} :
    String.fromUTF8? ⟨(bytesOf value).toArray⟩ = some value := by
  have same : (⟨(bytesOf value).toArray⟩ : ByteArray) = value.toByteArray := by
    simp [bytesOf]
  rw [same, String.fromUTF8?, dif_pos value.isValidUTF8]
  rfl

/-- A text without the terminator is read as it is. -/
theorem text_bytesOf {value : String} (whole : 0 ∉ bytesOf value) :
    text (bytesOf value) = .ok value := by
  have plain : value.toList.contains '\x00' = false := by
    rw [List.contains_eq_mem, decide_eq_false_iff_not]
    intro mem
    refine whole ?_
    rw [bytesOf_eq]
    exact List.mem_flatMap.mpr ⟨'\x00', mem, by decide⟩
  rw [text, fromUTF8?_bytesOf]
  simp only [plain]
  rfl

/-- A printable character of ASCII: one byte, neither the terminator nor a blank. -/
def isPrinted (char : Char) : Bool := 0x21 ≤ char.toNat && char.toNat ≤ 0x7e

/-- A character of ASCII is the byte of its code. -/
theorem mem_encoded {char : Char} (ascii : char.toNat ≤ 0x7f) {byte : UInt8}
    (mem : byte ∈ String.utf8EncodeChar char) : byte.toNat = char.toNat := by
  have single : char.utf8Size = 1 := by
    rw [Char.utf8Size, if_pos]
    exact UInt32.le_iff_toNat_le.mpr ascii
  rw [String.utf8EncodeChar_eq_singleton single] at mem
  have small : (UInt8.ofNat char.toNat).toNat = char.toNat := Nat.mod_eq_of_lt (by omega)
  rw [List.mem_singleton.mp mem]
  exact small

theorem not_mem_encoded {char : Char} (printed : isPrinted char = true) :
    0 ∉ String.utf8EncodeChar char ∧ 32 ∉ String.utf8EncodeChar char := by
  simp only [isPrinted, Bool.and_eq_true, decide_eq_true_eq] at printed
  have ascii : char.toNat ≤ 0x7f := by omega
  constructor
  · intro mem
    have same : 0 = char.toNat := mem_encoded ascii mem
    omega
  · intro mem
    have same : 32 = char.toNat := mem_encoded ascii mem
    omega

theorem not_mem_bytesOf {value : String} (printed : ∀ char ∈ value.toList, isPrinted char = true) :
    0 ∉ bytesOf value ∧ 32 ∉ bytesOf value := by
  rw [bytesOf_eq]
  constructor
  · intro mem
    obtain ⟨char, known, inside⟩ := List.mem_flatMap.mp mem
    exact (not_mem_encoded (printed char known)).1 inside
  · intro mem
    obtain ⟨char, known, inside⟩ := List.mem_flatMap.mp mem
    exact (not_mem_encoded (printed char known)).2 inside

theorem not_mem_of_text {value : String}
    (printed : ∀ char ∈ value.toList, isPrinted char = true ∨ char = ' ') :
    0 ∉ bytesOf value := by
  rw [bytesOf_eq]
  intro mem
  obtain ⟨char, known, inside⟩ := List.mem_flatMap.mp mem
  obtain shown | rfl := printed char known
  · exact (not_mem_encoded shown).1 inside
  · exact absurd inside (by decide)

/-! ## Words -/

theorem not_isWhitespace_of_isPrinted {char : Char} (printed : isPrinted char = true) :
    isWhitespace char = false := by
  simp only [isPrinted, Bool.and_eq_true, decide_eq_true_eq] at printed
  simp only [isWhitespace, Bool.or_eq_false_iff, Bool.and_eq_false_iff, decide_eq_false_iff_not,
    beq_eq_false_iff_ne]
  omega

/-- Words with a blank between every two of them. -/
def joined (words : List String) : String :=
  String.ofList ([' '].intercalate (words.map String.toList))

/-- The words of a text are the words it was joined from. -/
theorem splitWhitespace_joined {words : List String}
    (printed : ∀ word ∈ words, word ≠ "" ∧ ∀ char ∈ word.toList, isPrinted char = true) :
    splitWhitespace (joined words) = words := by
  rw [splitWhitespace, joined, String.toList_ofList]
  induction words with
  | nil => rfl
  | cons word words inductionHypothesis =>
    have own := printed word List.mem_cons_self
    have later := inductionHypothesis fun other mem => printed other (List.mem_cons_of_mem _ mem)
    have plain : ∀ char ∈ word.toList, isWhitespace char = false := fun char mem =>
      not_isWhitespace_of_isPrinted (own.2 char mem)
    have some_ : word.toList ≠ [] := by simpa using own.1
    cases words with
    | nil =>
      have single : [' '].intercalate (List.map String.toList [word]) = word.toList := by simp
      rw [single, List.splitOnP_eq_singleton plain]
      simp [some_]
    | cons next words =>
      have split : [' '].intercalate (List.map String.toList (word :: next :: words)) =
          word.toList ++ ' ' :: [' '].intercalate (List.map String.toList (next :: words)) := by
        simp
      rw [split, List.splitOnP_append_cons_of_forall_mem plain ' ' (by decide)]
      simp only [List.filter_cons, some_, ne_eq, not_false_eq_true, decide_true, if_true,
        List.map_cons, String.ofList_toList] at later ⊢
      rw [later]

theorem mem_joined {words : List String} {char : Char} (mem : char ∈ (joined words).toList) :
    char = ' ' ∨ ∃ word ∈ words, char ∈ word.toList := by
  rw [joined, String.toList_ofList] at mem
  induction words with
  | nil => cases mem
  | cons word words inductionHypothesis =>
    cases words with
    | nil => exact .inr ⟨word, List.mem_cons_self, by simpa using mem⟩
    | cons next words =>
      have split : [' '].intercalate (List.map String.toList (word :: next :: words)) =
          word.toList ++ ' ' :: [' '].intercalate (List.map String.toList (next :: words)) := by
        simp
      rw [split, List.mem_append, List.mem_cons] at mem
      obtain own | rfl | later := mem
      · exact .inr ⟨word, List.mem_cons_self, own⟩
      · exact .inl rfl
      · obtain blank | ⟨other, known, inside⟩ := inductionHypothesis later
        · exact .inl blank
        · exact .inr ⟨other, List.mem_cons_of_mem _ known, inside⟩

/-! ## Numbers -/

theorem toNat_digitChar {digit : Nat} (small : digit < 10) :
    digit.digitChar.toNat = '0'.toNat + digit ∧ digit.digitChar.isDigit = true := by
  revert digit
  decide

/-- The digits of a number within the limit are read as the number. -/
theorem foldlM_toDigits {limit value : Nat} {outside : String} (within : value ≤ limit) :
    (Nat.toDigits 10 value).foldlM (nextDigit limit outside) 0 = .ok value := by
  induction value using Nat.strongRecOn with
  | ind value inductionHypothesis =>
    have read {digit front : Nat} (small : digit < 10) (whole : 10 * front + digit ≤ limit) :
        nextDigit limit outside front digit.digitChar = .ok (10 * front + digit) := by
      obtain ⟨code, isDigit⟩ := toNat_digitChar small
      simp [nextDigit, isDigit, code, whole, bind, Except.bind, pure, Except.pure]
    rw [Nat.toDigits_eq_if (by decide)]
    split
    · rename_i small
      rw [List.foldlM_cons, read small (by omega)]
      simp [bind, Except.bind, pure, Except.pure]
    · rename_i large
      have front := inductionHypothesis (value / 10) (by omega) (by omega)
      rw [List.foldlM_append, front]
      change [(value % 10).digitChar].foldlM (nextDigit limit outside) (value / 10) = _
      rw [List.foldlM_cons, read (by omega) (by omega)]
      simp [bind, Except.bind, pure, Except.pure]
      omega

theorem readDigits_toDigits {limit value : Nat} {outside : String} (within : value ≤ limit) :
    readDigits limit outside (Nat.toDigits 10 value) = .ok value := by
  have some_ : (Nat.toDigits 10 value).isEmpty = false := by simp
  rw [readDigits, some_]
  exact foldlM_toDigits within

theorem isDigit_of_mem_toDigits {value : Nat} {char : Char} (mem : char ∈ Nat.toDigits 10 value) :
    char.isDigit = true :=
  Nat.isDigit_of_mem_toDigits (by decide) (by decide) mem

theorem isPrinted_of_isDigit {char : Char} (digit : char.isDigit = true) :
    isPrinted char = true := by
  have bounds : '0'.toNat ≤ char.toNat ∧ char.toNat ≤ '9'.toNat := by
    simpa [Char.isDigit, UInt32.le_iff_toNat_le] using digit
  have low : '0'.toNat = 48 := rfl
  have high : '9'.toNat = 57 := rfl
  simp only [isPrinted, Bool.and_eq_true, decide_eq_true_eq]
  omega

theorem parseU64_toDigits {value : Nat} (bounded : value < 2 ^ 64) :
    parseU64 (String.ofList (Nat.toDigits 10 value)) = .ok value := by
  have small : value ≤ 2 ^ 64 - 1 := by omega
  have read := @readDigits_toDigits _ _ "number too large to fit in target type" small
  rw [parseU64, String.toList_ofList]
  cases digits : Nat.toDigits 10 value with
  | nil => exact absurd digits Nat.toDigits_ne_nil
  | cons first rest =>
    have digit : first.isDigit = true :=
      isDigit_of_mem_toDigits (digits ▸ List.mem_cons_self)
    rw [digits] at read
    split
    · simp_all
    · rename_i plus
      cases plus
      exact absurd digit (by decide)
    · exact read

/-- A number as Git writes it. -/
def decimal : Int → List Char
  | .ofNat value => Nat.toDigits 10 value
  | .negSucc value => '-' :: Nat.toDigits 10 (value + 1)

theorem isPrinted_of_mem_decimal {value : Int} {char : Char} (mem : char ∈ decimal value) :
    isPrinted char = true := by
  cases value with
  | ofNat value => exact isPrinted_of_isDigit (isDigit_of_mem_toDigits mem)
  | negSucc value =>
    obtain rfl | later := List.mem_cons.mp mem
    · decide
    · exact isPrinted_of_isDigit (isDigit_of_mem_toDigits later)

theorem parseI64_decimal {value : Int} (bounded : -2 ^ 63 ≤ value ∧ value < 2 ^ 63) :
    parseI64 (String.ofList (decimal value)) = .ok value := by
  rw [parseI64, String.toList_ofList]
  cases value with
  | negSucc value =>
    have small : value + 1 ≤ 2 ^ 63 := by omega
    simp only [decimal, readDigits_toDigits small]
    rfl
  | ofNat value =>
    have small : value ≤ 2 ^ 63 - 1 := by
      have := bounded.2
      simp only [Int.ofNat_eq_natCast] at this
      omega
    have read := @readDigits_toDigits _ _ "number too large to fit in target type" small
    rw [decimal]
    cases digits : Nat.toDigits 10 value with
    | nil => exact absurd digits Nat.toDigits_ne_nil
    | cons first rest =>
      have digit : first.isDigit = true :=
        isDigit_of_mem_toDigits (digits ▸ List.mem_cons_self)
      rw [digits] at read
      split
      · simp_all
      · rename_i minus
        cases minus
        exact absurd digit (by decide)
      · rename_i plus
        cases plus
        exact absurd digit (by decide)
      · rw [read]
        rfl

end Idk.Git
