import Mathlib.Data.Nat.Digits.Defs
import Mathlib.Tactic.IntervalCases
import Mathlib.Tactic.Ring

/-!
# JSON texts and their lengths

A JSON value, its compact and its indented text, and the number of bytes that either
takes in UTF-8.  The lengths are defined by recursion on the value, without printing
it, and are proved to be those of the texts.

The texts are printed as `serde_json` prints them: two spaces for each level, an empty
array or object without a line break, and only quotes, backslashes and the characters
below the space escaped.
-/

namespace Idk.Logic

/-- A float is kept as the text it is printed as. -/
inductive Json where
  | null
  | bool (value : Bool)
  | num (value : Int)
  | float (text : String)
  | str (value : String)
  | arr (items : List Json)
  | obj (fields : List (String × Json))

namespace Json

/-! ## Texts -/

/-- The bytes of a text in UTF-8. -/
def bytes (text : List Char) : Nat := (text.map Char.utf8Size).sum

/-- A character within a string. -/
def escaped (char : Char) : List Char :=
  if char = '"' then ['\\', '"']
  else if char = '\\' then ['\\', '\\']
  else if 0x20 ≤ char.toNat then [char]
  else
    match char.toNat with
    | 0x08 => ['\\', 'b']
    | 0x09 => ['\\', 't']
    | 0x0a => ['\\', 'n']
    | 0x0c => ['\\', 'f']
    | 0x0d => ['\\', 'r']
    | code => ['\\', 'u', '0', '0', Nat.digitChar (code / 16), Nat.digitChar (code % 16)]

def quoted (text : String) : List Char := '"' :: text.toList.flatMap escaped ++ ['"']

def printedInt : Int → List Char
  | .ofNat value => Nat.toDigits 10 value
  | .negSucc value => '-' :: Nat.toDigits 10 (value + 1)

def printedBool (value : Bool) : List Char := if value then "true".toList else "false".toList

mutual

/-- `to_vec`. -/
def compact : Json → List Char
  | .null => "null".toList
  | .bool value => printedBool value
  | .num value => printedInt value
  | .float text => text.toList
  | .str text => quoted text
  | .arr [] => ['[', ']']
  | .arr (first :: rest) => '[' :: compact first ++ compactItems rest ++ [']']
  | .obj [] => ['{', '}']
  | .obj ((key, value) :: rest) =>
    '{' :: quoted key ++ ':' :: compact value ++ compactFields rest ++ ['}']

def compactItems : List Json → List Char
  | [] => []
  | value :: rest => ',' :: compact value ++ compactItems rest

def compactFields : List (String × Json) → List Char
  | [] => []
  | (key, value) :: rest => ',' :: quoted key ++ ':' :: compact value ++ compactFields rest

end

/-- A line break and the indentation of the next line. -/
def newline (depth : Nat) : List Char := '\n' :: List.replicate (2 * depth) ' '

mutual

/-- `to_vec_pretty`, of a value at this depth. -/
def pretty (depth : Nat) : Json → List Char
  | .null => "null".toList
  | .bool value => printedBool value
  | .num value => printedInt value
  | .float text => text.toList
  | .str text => quoted text
  | .arr [] => ['[', ']']
  | .arr (first :: rest) =>
    '[' :: newline (depth + 1) ++ pretty (depth + 1) first ++ prettyItems (depth + 1) rest ++
      newline depth ++ [']']
  | .obj [] => ['{', '}']
  | .obj ((key, value) :: rest) =>
    '{' :: newline (depth + 1) ++ quoted key ++ ':' :: ' ' :: pretty (depth + 1) value ++
      prettyFields (depth + 1) rest ++ newline depth ++ ['}']

def prettyItems (depth : Nat) : List Json → List Char
  | [] => []
  | value :: rest => ',' :: newline depth ++ pretty depth value ++ prettyItems depth rest

def prettyFields (depth : Nat) : List (String × Json) → List Char
  | [] => []
  | (key, value) :: rest =>
    ',' :: newline depth ++ quoted key ++ ':' :: ' ' :: pretty depth value ++
      prettyFields depth rest

end

/-! ## Lengths -/

def charWidth (char : Char) : Nat :=
  if char = '"' ∨ char = '\\' then 2
  else if 0x20 ≤ char.toNat then char.utf8Size
  else if char.toNat ∈ [0x08, 0x09, 0x0a, 0x0c, 0x0d] then 2
  else 6

/-- What a text takes within quotes. -/
def textWidth (text : String) : Nat := (text.toList.map charWidth).sum

/-- The same of a name in an object, where the text is known and to be computed. -/
def keyWidth (key : String) : Nat := (key.toList.map charWidth).sum

def intWidth (value : Int) : Nat := (printedInt value).length

def boolWidth (value : Bool) : Nat := if value then 4 else 5

mutual

/-- The length of the compact text. -/
def width : Json → Nat
  | .null => 4
  | .bool value => boolWidth value
  | .num value => intWidth value
  | .float text => bytes text.toList
  | .str text => textWidth text + 2
  | .arr [] => 2
  | .arr (first :: rest) => width first + widthItems rest + 2
  | .obj [] => 2
  | .obj ((key, value) :: rest) => keyWidth key + width value + 3 + widthFields rest + 2

def widthItems : List Json → Nat
  | [] => 0
  | value :: rest => width value + 1 + widthItems rest

def widthFields : List (String × Json) → Nat
  | [] => 0
  | (key, value) :: rest => keyWidth key + width value + 4 + widthFields rest

end

mutual

/-- The length of the indented text. -/
def prettyWidth (depth : Nat) : Json → Nat
  | .null => 4
  | .bool value => boolWidth value
  | .num value => intWidth value
  | .float text => bytes text.toList
  | .str text => textWidth text + 2
  | .arr [] => 2
  | .arr (first :: rest) =>
    prettyWidth (depth + 1) first + prettyWidthItems (depth + 1) rest + 4 * depth + 6
  | .obj [] => 2
  | .obj ((key, value) :: rest) =>
    keyWidth key + prettyWidth (depth + 1) value + prettyWidthFields (depth + 1) rest +
      4 * depth + 10

def prettyWidthItems (depth : Nat) : List Json → Nat
  | [] => 0
  | value :: rest => prettyWidth depth value + 2 * depth + 2 + prettyWidthItems depth rest

def prettyWidthFields (depth : Nat) : List (String × Json) → Nat
  | [] => 0
  | (key, value) :: rest =>
    keyWidth key + prettyWidth depth value + 2 * depth + 6 + prettyWidthFields depth rest

end

/-! ## The lengths are those of the texts -/

@[simp] theorem bytes_nil : bytes [] = 0 := rfl

@[simp] theorem bytes_cons (char : Char) (rest : List Char) :
    bytes (char :: rest) = char.utf8Size + bytes rest := by
  simp [bytes]

@[simp] theorem bytes_append (left right : List Char) :
    bytes (left ++ right) = bytes left + bytes right := by
  simp [bytes]

theorem bytes_ascii {text : List Char} (ascii : ∀ char ∈ text, char.utf8Size = 1) :
    bytes text = text.length := by
  induction text with
  | nil => rfl
  | cons char rest inductionHypothesis =>
    have first := ascii char (by simp)
    have others := inductionHypothesis fun char mem => ascii char (by simp [mem])
    simp [first, others, Nat.add_comm]

/-- Printing a text as a string leaves its bytes as they are. -/
theorem utf8ByteSize_ofList (text : List Char) : (String.ofList text).utf8ByteSize = bytes text := by
  induction text with
  | nil => rfl
  | cons char rest inductionHypothesis =>
    have split : String.ofList (char :: rest) = String.singleton char ++ String.ofList rest := by
      simp
    rw [split, String.utf8ByteSize_append, inductionHypothesis]
    simp

theorem utf8Size_digitChar (digit : Nat) : (Nat.digitChar digit).utf8Size = 1 := by
  by_cases small : digit < 16
  · interval_cases digit <;> rfl
  · have star : Nat.digitChar digit = '*' := by
      simp only [Nat.digitChar]
      repeat rw [if_neg (by omega)]
    rw [star]
    rfl

theorem utf8Size_toDigits (value : Nat) : ∀ char ∈ Nat.toDigits 10 value, char.utf8Size = 1 := by
  intro char mem
  have digit : char.isDigit := Nat.isDigit_of_mem_toDigits (by decide) (by decide) mem
  simp only [Char.isDigit, Bool.and_eq_true, decide_eq_true_eq] at digit
  simp only [Char.utf8Size]
  rw [if_pos]
  exact UInt32.le_trans digit.2 (by decide)

theorem bytes_printedInt (value : Int) : bytes (printedInt value) = intWidth value := by
  cases value with
  | ofNat value => exact bytes_ascii (utf8Size_toDigits value)
  | negSucc value =>
    have digits := bytes_ascii (utf8Size_toDigits (value + 1))
    have sign : Char.utf8Size '-' = 1 := rfl
    simp [printedInt, intWidth, digits, sign, Nat.add_comm]

theorem bytes_printedBool (value : Bool) : bytes (printedBool value) = boolWidth value := by
  cases value <;> rfl

theorem utf8Size_small {char : Char} (small : char.toNat < 0x80) : char.utf8Size = 1 := by
  simp only [Char.utf8Size]
  rw [if_pos]
  exact UInt32.le_iff_toNat_le.mpr (Nat.le_of_lt_succ small)

theorem bytes_escaped (char : Char) : bytes (escaped char) = charWidth char := by
  unfold escaped charWidth
  by_cases quote : char = '"'
  · simp only [quote, if_true, true_or]
    rfl
  by_cases backslash : char = '\\'
  · simp only [backslash, if_true, or_true]
    rfl
  by_cases visible : 0x20 ≤ char.toNat
  · simp [quote, backslash, visible]
  -- what remains are the control characters, of which five have an escape of two bytes
  simp only [quote, backslash, visible, if_false, or_self]
  have small : char.toNat < 0x20 := by omega
  generalize char.toNat = code at small
  interval_cases code <;> rfl

theorem bytes_quoted (text : String) : bytes (quoted text) = textWidth text + 2 := by
  have body : bytes (text.toList.flatMap escaped) = textWidth text := by
    rw [textWidth]
    induction text.toList with
    | nil => rfl
    | cons char rest inductionHypothesis =>
      simp [bytes_escaped, inductionHypothesis]
  have mark : Char.utf8Size '"' = 1 := rfl
  simp [quoted, body, mark]
  omega

theorem bytes_key (key : String) : bytes (quoted key) = keyWidth key + 2 := bytes_quoted key

theorem bytes_newline (depth : Nat) : bytes (newline depth) = 2 * depth + 1 := by
  have blanks : bytes (List.replicate (2 * depth) ' ') = 2 * depth := by
    have blank : Char.utf8Size ' ' = 1 := rfl
    simp [bytes, blank]
  have feed : Char.utf8Size '\n' = 1 := rfl
  simp [newline, blanks, feed, Nat.add_comm]

@[simp] theorem utf8Size_openBracket : Char.utf8Size '[' = 1 := rfl
@[simp] theorem utf8Size_closeBracket : Char.utf8Size ']' = 1 := rfl
@[simp] theorem utf8Size_openBrace : Char.utf8Size '{' = 1 := rfl
@[simp] theorem utf8Size_closeBrace : Char.utf8Size '}' = 1 := rfl
@[simp] theorem utf8Size_comma : Char.utf8Size ',' = 1 := rfl
@[simp] theorem utf8Size_colon : Char.utf8Size ':' = 1 := rfl
@[simp] theorem utf8Size_blank : Char.utf8Size ' ' = 1 := rfl

mutual

/-- The width of a value is the length of its compact text. -/
theorem bytes_compact : ∀ value : Json, bytes value.compact = value.width
  | .null => rfl
  | .bool value => bytes_printedBool value
  | .num value => bytes_printedInt value
  | .float _ => rfl
  | .str text => bytes_quoted text
  | .arr [] => rfl
  | .arr (first :: rest) => by
    simp [compact, width, bytes_compact first, bytes_compactItems rest]
    omega
  | .obj [] => rfl
  | .obj ((key, value) :: rest) => by
    simp [compact, width, bytes_key, bytes_compact value, bytes_compactFields rest]
    omega

theorem bytes_compactItems : ∀ items : List Json, bytes (compactItems items) = widthItems items
  | [] => rfl
  | value :: rest => by
    simp [compactItems, widthItems, bytes_compact value, bytes_compactItems rest]
    omega

theorem bytes_compactFields :
    ∀ fields : List (String × Json), bytes (compactFields fields) = widthFields fields
  | [] => rfl
  | (key, value) :: rest => by
    simp [compactFields, widthFields, bytes_key, bytes_compact value, bytes_compactFields rest]
    omega

end

mutual

/-- The indented width of a value is the length of its indented text. -/
theorem bytes_pretty (depth : Nat) :
    ∀ value : Json, bytes (value.pretty depth) = value.prettyWidth depth
  | .null => rfl
  | .bool value => bytes_printedBool value
  | .num value => bytes_printedInt value
  | .float _ => rfl
  | .str text => bytes_quoted text
  | .arr [] => rfl
  | .arr (first :: rest) => by
    simp [pretty, prettyWidth, bytes_newline, bytes_pretty (depth + 1) first,
      bytes_prettyItems (depth + 1) rest]
    omega
  | .obj [] => rfl
  | .obj ((key, value) :: rest) => by
    simp [pretty, prettyWidth, bytes_newline, bytes_key, bytes_pretty (depth + 1) value,
      bytes_prettyFields (depth + 1) rest]
    omega

theorem bytes_prettyItems (depth : Nat) :
    ∀ items : List Json, bytes (prettyItems depth items) = prettyWidthItems depth items
  | [] => rfl
  | value :: rest => by
    simp [prettyItems, prettyWidthItems, bytes_newline, bytes_pretty depth value,
      bytes_prettyItems depth rest]
    omega

theorem bytes_prettyFields (depth : Nat) : ∀ fields : List (String × Json),
    bytes (prettyFields depth fields) = prettyWidthFields depth fields
  | [] => rfl
  | (key, value) :: rest => by
    simp [prettyFields, prettyWidthFields, bytes_newline, bytes_key, bytes_pretty depth value,
      bytes_prettyFields depth rest]
    omega

end

/-! ## Bounds -/

theorem bytes_toList (text : String) : bytes text.toList = text.utf8ByteSize := by
  rw [← utf8ByteSize_ofList, String.ofList_toList]

theorem utf8Size_pos (char : Char) : 1 ≤ char.utf8Size := Char.utf8Size_pos char

/-- One byte may become six. -/
theorem charWidth_le (char : Char) : charWidth char ≤ 6 * char.utf8Size := by
  have some := utf8Size_pos char
  unfold charWidth
  split_ifs <;> omega

/-- What is not a control character only has the quote and the backslash to escape. -/
theorem charWidth_visible {char : Char} (visible : 0x20 ≤ char.toNat) :
    charWidth char ≤ 2 * char.utf8Size ∧ charWidth char ≤ 4 := by
  have some := utf8Size_pos char
  have most := Char.utf8Size_le_four char
  unfold charWidth
  split_ifs <;> omega

theorem charWidth_plain {char : Char}
    (plain : char ≠ '"' ∧ char ≠ '\\' ∧ 0x20 ≤ char.toNat) : charWidth char = char.utf8Size := by
  simp [charWidth, plain.1, plain.2.1, plain.2.2]

theorem textWidth_le (text : String) : textWidth text ≤ 6 * text.utf8ByteSize := by
  rw [← bytes_toList, textWidth]
  induction text.toList with
  | nil => simp
  | cons char rest inductionHypothesis =>
    have first := charWidth_le char
    simp only [List.map_cons, List.sum_cons, bytes_cons]
    omega

theorem textWidth_visible (text : String) (visible : ∀ char ∈ text.toList, 0x20 ≤ char.toNat) :
    textWidth text ≤ 2 * text.utf8ByteSize ∧ textWidth text ≤ 4 * text.length := by
  rw [← bytes_toList, textWidth, ← String.length_toList]
  generalize text.toList = chars at visible
  induction chars with
  | nil => simp
  | cons char rest inductionHypothesis =>
    have first := charWidth_visible (visible char (by simp))
    have others := inductionHypothesis fun char mem => visible char (by simp [mem])
    simp only [List.map_cons, List.sum_cons, bytes_cons, List.length_cons]
    omega

theorem textWidth_plain {text : String}
    (plain : ∀ char ∈ text.toList, char ≠ '"' ∧ char ≠ '\\' ∧ 0x20 ≤ char.toNat) :
    textWidth text = text.utf8ByteSize := by
  rw [← bytes_toList, textWidth]
  generalize text.toList = chars at plain
  induction chars with
  | nil => rfl
  | cons char rest inductionHypothesis =>
    have others := inductionHypothesis fun char mem => plain char (by simp [mem])
    simp [charWidth_plain (plain char (by simp)), others]

theorem intWidth_le {value : Nat} (digits : Nat) (some : 0 < digits) (small : value < 10 ^ digits) :
    intWidth value ≤ digits :=
  (Nat.length_toDigits_le_iff (by decide) some).mpr small

theorem boolWidth_le (value : Bool) : boolWidth value ≤ 5 := by
  cases value <;> decide

/-- The text that is written or sent. -/
def encode (value : Json) : String := String.ofList value.compact

def encodePretty (value : Json) : String := String.ofList (value.pretty 0)

@[simp] theorem utf8ByteSize_encode (value : Json) : value.encode.utf8ByteSize = value.width := by
  rw [encode, utf8ByteSize_ofList, bytes_compact]

@[simp] theorem utf8ByteSize_encodePretty (value : Json) :
    value.encodePretty.utf8ByteSize = value.prettyWidth 0 := by
  rw [encodePretty, utf8ByteSize_ofList, bytes_pretty]

/-! ## Looking into a value -/

/-- `get`. -/
def field (key : String) : Json → Option Json
  | .obj fields => fields.lookup key
  | _ => none

/-- `pointer`, of names only: an array has no part with a name. -/
def pointer : List String → Json → Option Json
  | [], value => some value
  | key :: rest, value => (value.field key).bind (pointer rest)

def asStr : Json → Option String
  | .str text => some text
  | _ => none

/-- `as_u64`. -/
def asNat : Json → Option Nat
  | .num value => if 0 ≤ value ∧ value < 2 ^ 64 then some value.toNat else none
  | _ => none

def asBool : Json → Option Bool
  | .bool value => some value
  | _ => none

def asArr : Json → Option (List Json)
  | .arr items => some items
  | _ => none

def isObj : Json → Bool
  | .obj _ => true
  | _ => false

def isNull : Json → Bool
  | .null => true
  | _ => false

mutual

/-- `left == right`. -/
def same : Json → Json → Bool
  | .null, .null => true
  | .bool left, .bool right => left == right
  | .num left, .num right => left == right
  | .float left, .float right => left == right
  | .str left, .str right => left == right
  | .arr left, .arr right => sameItems left right
  | .obj left, .obj right => sameFields left right
  | _, _ => false

def sameItems : List Json → List Json → Bool
  | [], [] => true
  | left :: lefts, right :: rights => same left right && sameItems lefts rights
  | _, _ => false

/-- The fields of an object are in the order of their names. -/
def sameFields : List (String × Json) → List (String × Json) → Bool
  | [], [] => true
  | (leftKey, left) :: lefts, (rightKey, right) :: rights =>
    leftKey == rightKey && same left right && sameFields lefts rights
  | _, _ => false

end

mutual

/-- The number of values within a value, itself included. -/
def size : Json → Nat
  | .null | .bool _ | .num _ | .float _ | .str _ => 1
  | .arr items => sizeItems items + 1
  | .obj fields => sizeFields fields + 1

def sizeItems : List Json → Nat
  | [] => 0
  | value :: rest => size value + sizeItems rest

def sizeFields : List (String × Json) → Nat
  | [] => 0
  | (_, value) :: rest => size value + sizeFields rest

end

theorem size_pos (value : Json) : 0 < value.size := by
  cases value <;> simp [size]

theorem length_le_sizeItems (items : List Json) : items.length ≤ sizeItems items := by
  induction items with
  | nil => simp [sizeItems]
  | cons value rest inductionHypothesis =>
    have one := size_pos value
    simp only [sizeItems, List.length_cons]
    omega

/-- What a document holds is no larger than the document. -/
theorem size_field_le {value found : Json} {key : String} (same : value.field key = some found) :
    found.size ≤ value.size := by
  cases value with
  | obj fields =>
    simp only [field] at same
    simp only [size]
    induction fields with
    | nil => cases same
    | cons pair rest inductionHypothesis =>
      simp only [sizeFields]
      rw [List.lookup_cons] at same
      split at same
      · cases same
        omega
      · have smaller := inductionHypothesis same
        omega
  | _ => cases same

theorem length_le_size {value : Json} {items : List Json} (same : value.asArr = some items) :
    items.length ≤ value.size := by
  cases value with
  | arr found =>
    cases same
    have counted := length_le_sizeItems items
    simp only [size]
    omega
  | _ => cases same

/-- What reads a JSON text.  It never finds more values than the text has bytes, and what
    it says of a text it cannot read is short: the kind of the fault and its position. -/
structure Decoder where
  decode : List UInt8 → Except String Json
  small : ∀ {text value}, decode text = .ok value → value.size ≤ text.length
  short : ∀ {text error}, decode text = .error error → textWidth error ≤ 256

/-! ## Values of other types -/

def nat (value : Nat) : Json := .num value

/-- `Option::None` is `null`. -/
def optional {α : Type} (value : Option α) (encoded : α → Json) : Json :=
  value.elim .null encoded

def list {α : Type} (values : List α) (encoded : α → Json) : Json := .arr (values.map encoded)

theorem width_optional {α : Type} {value : Option α} {encoded : α → Json} {limit : Nat}
    (empty : 4 ≤ limit) (each : ∀ found, value = some found → (encoded found).width ≤ limit) :
    (optional value encoded).width ≤ limit := by
  cases value with
  | none => exact empty
  | some found => exact each found rfl

theorem width_optional_text {value : Option String} {limit : Nat} (some : 2 ≤ limit)
    (each : ∀ text, value = .some text → textWidth text ≤ limit) :
    (optional value .str).width ≤ limit + 2 :=
  width_optional (by omega) fun text same => by
    have width := each text same
    simp only [Json.width]
    omega

theorem widthItems_le {α : Type} {values : List α} {encoded : α → Json} {limit : Nat}
    (each : ∀ value ∈ values, (encoded value).width ≤ limit) :
    widthItems (values.map encoded) ≤ values.length * (limit + 1) := by
  induction values with
  | nil => simp [widthItems]
  | cons value rest inductionHypothesis =>
    have first := each value (by simp)
    have others := inductionHypothesis fun value mem => each value (by simp [mem])
    simp only [List.map_cons, widthItems, List.length_cons, Nat.succ_mul]
    omega

/-- Every value comes with a comma or a bracket. -/
theorem width_list {α : Type} {values : List α} {encoded : α → Json} {limit : Nat}
    (each : ∀ value ∈ values, (encoded value).width ≤ limit) :
    (list values encoded).width ≤ values.length * (limit + 1) + 2 := by
  cases values with
  | nil => simp [list, width]
  | cons value rest =>
    have first := each value (by simp)
    have others : widthItems (rest.map encoded) ≤ rest.length * (limit + 1) :=
      widthItems_le fun value mem => each value (by simp [mem])
    simp only [list, List.map_cons, width, List.length_cons, Nat.succ_mul]
    omega

end Json

end Idk.Logic
