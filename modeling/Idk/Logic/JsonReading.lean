import Idk.Logic.Json

/-!
# A JSON text is the text of one value

**Main rule:** `compact_injective`: two values without floats that are printed alike are one
value.

No reader is needed for it.  Two texts are compared from the left; the first character tells
what kind of value stands there, and the characters that may follow a value do not continue it.
-/

namespace Idk.Logic.Json

mutual

/-- No float: a float is kept as a text, which may be any. -/
def exact : Json → Bool
  | .float _ => false
  | .arr items => exactItems items
  | .obj fields => exactFields fields
  | .null => true
  | .bool _ => true
  | .num _ => true
  | .str _ => true

def exactItems : List Json → Bool
  | [] => true
  | value :: rest => exact value && exactItems rest

def exactFields : List (String × Json) → Bool
  | [] => true
  | (_, value) :: rest => exact value && exactFields rest

end

/-! ## Strings -/

def hexValue (char : Char) : Nat :=
  if char.isDigit then char.toNat - '0'.toNat else char.toNat - 'a'.toNat + 10

/-- The character that stands escaped at the front, and what follows it. -/
def readEscaped : List Char → Option (Char × List Char)
  | [] => none
  | '"' :: _ => none
  | '\\' :: 'u' :: '0' :: '0' :: high :: low :: rest =>
    some (Char.ofNat (16 * hexValue high + hexValue low), rest)
  | '\\' :: 'b' :: rest => some (Char.ofNat 0x08, rest)
  | '\\' :: 't' :: rest => some (Char.ofNat 0x09, rest)
  | '\\' :: 'n' :: rest => some (Char.ofNat 0x0a, rest)
  | '\\' :: 'f' :: rest => some (Char.ofNat 0x0c, rest)
  | '\\' :: 'r' :: rest => some (Char.ofNat 0x0d, rest)
  | '\\' :: char :: rest => some (char, rest)
  | char :: rest => some (char, rest)

theorem readEscaped_escaped (char : Char) (rest : List Char) :
    readEscaped (escaped char ++ rest) = some (char, rest) := by
  by_cases quote : char = '"'
  · subst quote
    rfl
  by_cases backslash : char = '\\'
  · subst backslash
    rfl
  by_cases visible : 0x20 ≤ char.toNat
  · simp only [escaped, quote, backslash, visible, if_true, if_false, List.singleton_append]
    unfold readEscaped
    split <;> simp_all
  -- what remains are the control characters, each with its own escape
  have small : char.toNat < 0x20 := by omega
  have code : char = Char.ofNat char.toNat := (Char.ofNat_toNat char).symm
  simp only [escaped, quote, backslash, visible, if_false]
  rw [code]
  generalize char.toNat = number at small
  interval_cases number <;> rfl

theorem body_append {first second left right : List Char}
    (same : first.flatMap escaped ++ '"' :: left = second.flatMap escaped ++ '"' :: right) :
    first = second ∧ left = right := by
  induction first generalizing second with
  | nil =>
    cases second with
    | nil => exact ⟨rfl, (List.cons.inj same).2⟩
    | cons char rest =>
      rw [List.flatMap_cons, List.append_assoc] at same
      have read := congrArg readEscaped same
      rw [readEscaped_escaped] at read
      cases read
  | cons char rest inductionHypothesis =>
    rw [List.flatMap_cons, List.append_assoc] at same
    have read := congrArg readEscaped same
    rw [readEscaped_escaped] at read
    cases second with
    | nil => cases read
    | cons other others =>
      rw [List.flatMap_cons, List.append_assoc, readEscaped_escaped] at read
      simp only [Option.some.injEq, Prod.mk.injEq] at read
      obtain ⟨rfl, tails⟩ := inductionHypothesis read.2
      exact ⟨by rw [read.1], tails⟩

theorem quoted_append {first second : String} {left right : List Char}
    (same : quoted first ++ left = quoted second ++ right) : first = second ∧ left = right := by
  simp only [quoted, List.cons_append, List.append_assoc, List.cons.injEq, true_and] at same
  obtain ⟨texts, tails⟩ := body_append same
  exact ⟨String.toList_inj.mp texts, tails⟩

/-! ## Numbers -/

/-- What follows does not continue a number. -/
def Ends (rest : List Char) : Prop := ∀ char ∈ rest.head?, char.isDigit = false

theorem digits_append {first second : Nat} {left right : List Char} (ends : Ends left)
    (stops : Ends right) (same : Nat.toDigits 10 first ++ left = Nat.toDigits 10 second ++ right) :
    first = second ∧ left = right := by
  have spans (number : Nat) {rest : List Char} (ends : Ends rest) :
      (Nat.toDigits 10 number ++ rest).takeWhile Char.isDigit = Nat.toDigits 10 number := by
    rw [List.takeWhile_append_of_pos fun char mem =>
      Nat.isDigit_of_mem_toDigits (by decide) (by decide) mem]
    cases rest with
    | nil => simp
    | cons char rest => simp [ends char rfl]
  have digits := congrArg (List.takeWhile Char.isDigit) same
  rw [spans first ends, spans second stops] at digits
  have numbers := congrArg (Nat.ofDigitChars 10 · 0) digits
  simp only [Nat.ofDigitChars_ten_toDigits] at numbers
  rw [digits] at same
  exact ⟨numbers, List.append_cancel_left same⟩

theorem minus_ne_digits {number : Nat} {left right : List Char}
    (same : '-' :: left = Nat.toDigits 10 number ++ right) : False := by
  cases digits : Nat.toDigits 10 number with
  | nil => exact Nat.toDigits_ne_nil digits
  | cons first rest =>
    have digit : first.isDigit = true :=
      Nat.isDigit_of_mem_toDigits (by decide) (by decide) (digits ▸ List.mem_cons_self)
    rw [digits, List.cons_append, List.cons.injEq] at same
    rw [← same.1] at digit
    exact absurd digit (by decide)

theorem int_append {first second : Int} {left right : List Char} (ends : Ends left)
    (stops : Ends right) (same : printedInt first ++ left = printedInt second ++ right) :
    first = second ∧ left = right := by
  cases first with
  | ofNat first =>
    cases second with
    | ofNat second =>
      obtain ⟨numbers, tails⟩ := digits_append ends stops same
      exact ⟨congrArg Int.ofNat numbers, tails⟩
    | negSucc second => exact absurd same.symm minus_ne_digits
  | negSucc first =>
    cases second with
    | ofNat second => exact absurd same minus_ne_digits
    | negSucc second =>
      obtain ⟨numbers, tails⟩ := digits_append ends stops (List.cons.inj same).2
      exact ⟨congrArg Int.negSucc (Nat.succ.inj numbers), tails⟩

/-! ## Values -/

inductive Kind where
  | null | bool | num | str | arr | obj | other
deriving DecidableEq

def kind : Json → Kind
  | .null => .null
  | .bool _ => .bool
  | .num _ => .num
  | .float _ => .other
  | .str _ => .str
  | .arr _ => .arr
  | .obj _ => .obj

/-- The kind of a value by its first character. -/
def kindOf (char : Char) : Kind :=
  if char = 'n' then .null
  else if char = 't' ∨ char = 'f' then .bool
  else if char = '-' ∨ char.isDigit then .num
  else if char = '"' then .str
  else if char = '[' then .arr
  else if char = '{' then .obj
  else .other

theorem kindOf_digit {char : Char} (digit : char.isDigit = true) : kindOf char = .num := by
  have other {mark : Char} (mark_ : mark.isDigit = false) : char ≠ mark := by
    rintro rfl
    rw [digit] at mark_
    cases mark_
  rw [kindOf, if_neg (other (by decide)), if_neg, if_pos (.inr digit)]
  rintro (rfl | rfl)
  · exact absurd digit (by decide)
  · exact absurd digit (by decide)

theorem head_compact (value : Json) (plain : exact value = true) :
    ∃ char rest, compact value = char :: rest ∧ kindOf char = kind value := by
  cases value with
  | null => exact ⟨'n', _, rfl, rfl⟩
  | bool value => cases value <;> exact ⟨_, _, rfl, rfl⟩
  | num value =>
    cases value with
    | ofNat value =>
      cases digits : Nat.toDigits 10 value with
      | nil => exact absurd digits Nat.toDigits_ne_nil
      | cons first rest =>
        have digit : first.isDigit = true :=
          Nat.isDigit_of_mem_toDigits (by decide) (by decide) (digits ▸ List.mem_cons_self)
        exact ⟨first, rest, digits, kindOf_digit digit⟩
    | negSucc value => exact ⟨'-', _, rfl, rfl⟩
  | float text => cases plain
  | str text => exact ⟨'"', _, rfl, rfl⟩
  | arr items => cases items <;> exact ⟨'[', _, rfl, rfl⟩
  | obj fields => cases fields <;> exact ⟨'{', _, rfl, rfl⟩

theorem kind_append {first second : Json} (plain : exact first = true)
    (other : exact second = true) {left right : List Char}
    (same : compact first ++ left = compact second ++ right) : kind first = kind second := by
  obtain ⟨char, rest, text, known⟩ := head_compact first plain
  obtain ⟨_, _, text', known'⟩ := head_compact second other
  rw [text, text', List.cons_append, List.cons_append, List.cons.injEq] at same
  rw [← known, ← known', same.1]

/-- No value begins with a closing bracket. -/
theorem not_closed {value : Json} (plain : exact value = true) {left right : List Char} :
    ']' :: left ≠ compact value ++ right := by
  intro same
  obtain ⟨char, rest, text, known⟩ := head_compact value plain
  rw [text, List.cons_append, List.cons.injEq] at same
  rw [← same.1] at known
  cases value with
  | float text => cases plain
  | _ => cases known

theorem ends_items (items : List Json) (rest : List Char) :
    Ends (compactItems items ++ ']' :: rest) := by
  cases items <;> rintro char ⟨⟩ <;> rfl

theorem ends_fields (fields : List (String × Json)) (rest : List Char) :
    Ends (compactFields fields ++ '}' :: rest) := by
  cases fields with
  | nil => rintro char ⟨⟩; rfl
  | cons field fields => rintro char ⟨⟩; rfl

mutual

/-- Of two texts that go on with something that ends a value, the values and what follows them
    are the same. -/
theorem compact_append : ∀ (first second : Json) {left right : List Char},
    exact first = true → exact second = true → Ends left → Ends right →
      compact first ++ left = compact second ++ right → first = second ∧ left = right
  | .null, second, left, right, plain, other, _, _, same => by
    cases second <;> cases kind_append plain other same
    exact ⟨rfl, List.append_cancel_left same⟩
  | .bool first, second, left, right, plain, other, _, _, same => by
    cases second <;> cases kind_append plain other same
    rename_i second
    cases first <;> cases second
    · exact ⟨rfl, List.append_cancel_left same⟩
    · cases same
    · cases same
    · exact ⟨rfl, List.append_cancel_left same⟩
  | .num first, second, left, right, plain, other, ends, stops, same => by
    cases second <;> cases kind_append plain other same
    obtain ⟨numbers, tails⟩ := int_append ends stops same
    exact ⟨congrArg Json.num numbers, tails⟩
  | .str first, second, left, right, plain, other, _, _, same => by
    cases second <;> cases kind_append plain other same
    obtain ⟨texts, tails⟩ := quoted_append same
    exact ⟨congrArg Json.str texts, tails⟩
  | .arr [], second, left, right, plain, other, _, _, same => by
    cases second <;> cases kind_append plain other same
    rename_i items
    cases items with
    | nil => exact ⟨rfl, List.append_cancel_left same⟩
    | cons value items =>
      simp only [exact, exactItems, Bool.and_eq_true] at other
      simp only [compact, List.cons_append, List.append_assoc, List.cons.injEq, true_and] at same
      exact absurd same (not_closed other.1)
  | .arr (value :: items), second, left, right, plain, other, _, _, same => by
    cases second <;> cases kind_append plain other same
    rename_i others
    simp only [exact, exactItems, Bool.and_eq_true] at plain
    cases others with
    | nil =>
      simp only [compact, List.cons_append, List.append_assoc, List.cons.injEq, true_and] at same
      exact absurd same.symm (not_closed plain.1)
    | cons other_ others =>
      simp only [exact, exactItems, Bool.and_eq_true] at other
      simp only [compact, List.cons_append, List.append_assoc, List.cons.injEq, true_and,
        List.nil_append] at same
      obtain ⟨values, rest⟩ := compact_append value other_ plain.1 other.1
        (ends_items items left) (ends_items others right) same
      obtain ⟨lists, tails⟩ := compactItems_append items others plain.2 other.2 rest
      exact ⟨by rw [values, lists], tails⟩
  | .obj [], second, left, right, plain, other, _, _, same => by
    cases second <;> cases kind_append plain other same
    rename_i fields
    cases fields with
    | nil => exact ⟨rfl, List.append_cancel_left same⟩
    | cons field fields => cases same
  | .obj ((key, value) :: fields), second, left, right, plain, other, _, _, same => by
    cases second <;> cases kind_append plain other same
    rename_i others
    simp only [exact, exactFields, Bool.and_eq_true] at plain
    cases others with
    | nil => cases same
    | cons field others =>
      obtain ⟨key_, other_⟩ := field
      simp only [exact, exactFields, Bool.and_eq_true] at other
      simp only [compact, List.cons_append, List.append_assoc, List.cons.injEq, true_and,
        List.nil_append] at same
      obtain ⟨keys, rest⟩ := quoted_append same
      obtain ⟨values, rest⟩ := compact_append value other_ plain.1 other.1
        (ends_fields fields left) (ends_fields others right) (List.cons.inj rest).2
      obtain ⟨lists, tails⟩ := compactFields_append fields others plain.2 other.2 rest
      exact ⟨by rw [keys, values, lists], tails⟩

theorem compactItems_append : ∀ (first second : List Json) {left right : List Char},
    exactItems first = true → exactItems second = true →
      compactItems first ++ ']' :: left = compactItems second ++ ']' :: right →
        first = second ∧ left = right
  | [], [], _, _, _, _, same => ⟨rfl, (List.cons.inj same).2⟩
  | [], _ :: _, _, _, _, _, same => by cases same
  | _ :: _, [], _, _, _, _, same => by cases same
  | value :: items, other_ :: others, left, right, plain, other, same => by
    simp only [exactItems, Bool.and_eq_true] at plain other
    simp only [compactItems, List.cons_append, List.append_assoc, List.cons.injEq,
      true_and] at same
    obtain ⟨values, rest⟩ := compact_append value other_ plain.1 other.1
      (ends_items items left) (ends_items others right) same
    obtain ⟨lists, tails⟩ := compactItems_append items others plain.2 other.2 rest
    exact ⟨by rw [values, lists], tails⟩

theorem compactFields_append : ∀ (first second : List (String × Json)) {left right : List Char},
    exactFields first = true → exactFields second = true →
      compactFields first ++ '}' :: left = compactFields second ++ '}' :: right →
        first = second ∧ left = right
  | [], [], _, _, _, _, same => ⟨rfl, (List.cons.inj same).2⟩
  | [], _ :: _, _, _, _, _, same => by cases same
  | _ :: _, [], _, _, _, _, same => by cases same
  | (key, value) :: fields, (key_, other_) :: others, left, right, plain, other, same => by
    simp only [exactFields, Bool.and_eq_true] at plain other
    simp only [compactFields, List.cons_append, List.append_assoc, List.cons.injEq,
      true_and] at same
    obtain ⟨keys, rest⟩ := quoted_append same
    obtain ⟨values, rest⟩ := compact_append value other_ plain.1 other.1
      (ends_fields fields left) (ends_fields others right) (List.cons.inj rest).2
    obtain ⟨lists, tails⟩ := compactFields_append fields others plain.2 other.2 rest
    exact ⟨by rw [keys, values, lists], tails⟩

end

theorem compact_injective {first second : Json} (plain : exact first = true)
    (other : exact second = true) (same : compact first = compact second) : first = second := by
  have ends : Ends [] := by rintro char ⟨⟩
  refine (compact_append first second plain other ends ends ?_).1
  rw [List.append_nil, List.append_nil]
  exact same

end Idk.Logic.Json
