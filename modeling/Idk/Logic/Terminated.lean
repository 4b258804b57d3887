import Mathlib.Data.List.Basic

/-!
# Streams of terminated strings

A stream of strings, each behind which the terminator stands.  An item is written as one or more
strings; a format says how, and what reading an item does to the state of its reader.  Every item
that a format writes is read back, and a stream that is cut is read as the items in front of the
cut, or not at all.
-/

namespace Idk.Logic

variable {α : Type} {terminator : α}

/-- The strings, each with its terminator. -/
def terminated (terminator : α) (strings : List (List α)) : List α :=
  strings.flatMap (· ++ [terminator])

@[simp] theorem terminated_nil : terminated terminator [] = [] := rfl

@[simp] theorem terminated_cons {string : List α} {strings : List (List α)} :
    terminated terminator (string :: strings) =
      string ++ terminator :: terminated terminator strings := by
  simp [terminated]

theorem terminated_append {first second : List (List α)} :
    terminated terminator (first ++ second) =
      terminated terminator first ++ terminated terminator second :=
  List.flatMap_append

theorem terminated_ends {strings : List (List α)} :
    terminated terminator strings = [] ∨
      (terminated terminator strings).getLast? = some terminator := by
  obtain rfl | ⟨front, string, rfl⟩ := List.eq_nil_or_concat strings
  · exact .inl rfl
  · right
    simp [terminated]

theorem not_mem_terminated {symbol : α} {strings : List (List α)} (other : symbol ≠ terminator)
    (outside : ∀ string ∈ strings, symbol ∉ string) :
    symbol ∉ terminated terminator strings := by
  intro mem
  obtain ⟨string, known, inside⟩ := List.mem_flatMap.mp mem
  obtain old | last := List.mem_append.mp inside
  · exact outside string known old
  · exact other (List.mem_singleton.mp last)

section Splitting

variable [DecidableEq α]

/-- Splitting at the terminators gives the strings back, and what follows the last one. -/
theorem splitOn_terminated {strings : List (List α)} {tail : List α}
    (whole : ∀ string ∈ strings, terminator ∉ string) (last : terminator ∉ tail) :
    (terminated terminator strings ++ tail).splitOn terminator = strings ++ [tail] := by
  induction strings with
  | nil => exact List.splitOn_eq_singleton last
  | cons string strings inductionHypothesis =>
    have first := whole string List.mem_cons_self
    have later := inductionHypothesis fun other mem => whole other (List.mem_cons_of_mem _ mem)
    rw [terminated_cons, List.append_assoc, List.cons_append,
      List.splitOn_append_cons_self_of_not_mem first, later]
    rfl

end Splitting

/-- A cut of a stream is behind a string, or its last symbol is no terminator. -/
theorem cut_terminated {strings : List (List α)} {cut : List α}
    (whole : ∀ string ∈ strings, terminator ∉ string)
    (part : cut <+: terminated terminator strings) :
    (∃ count, cut = terminated terminator (strings.take count)) ∨
      (cut ≠ [] ∧ cut.getLast? ≠ some terminator) := by
  induction strings generalizing cut with
  | nil => exact .inl ⟨0, List.prefix_nil.mp part⟩
  | cons string strings inductionHypothesis =>
    rw [terminated_cons] at part
    obtain inside | outside := Nat.lt_or_ge string.length cut.length
    · -- The cut is behind the terminator of the first string.
      have begins : string ++ [terminator] <+: cut := by
        refine List.prefix_of_prefix_length_le ?_ part (by rw [List.length_append]; exact inside)
        exact ⟨terminated terminator strings, by simp⟩
      obtain ⟨rest, rfl⟩ := begins
      have later : rest <+: terminated terminator strings := by
        rw [List.append_assoc, List.prefix_append_right_inj, List.singleton_append,
          List.cons_prefix_cons] at part
        exact part.2
      obtain ⟨count, same⟩ | ⟨some_, open_⟩ :=
        inductionHypothesis (fun other mem => whole other (List.mem_cons_of_mem _ mem)) later
      · left
        exact ⟨count + 1, by simp [same]⟩
      · right
        refine ⟨by simp, ?_⟩
        rwa [List.getLast?_append_of_ne_nil _ some_]
    · -- The cut is in the first string.
      have within : cut <+: string :=
        List.prefix_of_prefix_length_le part (List.prefix_append _ _) outside
      cases cut with
      | nil => exact .inl ⟨0, rfl⟩
      | cons first rest =>
        right
        refine ⟨List.cons_ne_nil _ _, fun last => ?_⟩
        exact whole string List.mem_cons_self (within.subset (List.mem_of_getLast? last))

/-- How items are written as strings, and what a reader of the strings does with them. -/
structure Format (α Item State Error : Type) where
  strings : Item → List (List α)
  apply : State → Item → State
  read : State → List (List α) → Except Error State
  /-- The strings of an item are read as that item, whatever follows them. -/
  item : ∀ state item rest, read state (strings item ++ rest) = read (apply state item) rest
  ended : ∀ state, read state [] = .ok state
  /-- A part of the strings of an item is no item. -/
  part : ∀ state item count, 0 < count → count < (strings item).length →
    ∃ error, read state ((strings item).take count) = .error error

namespace Format

variable {Item State Error : Type} (format : Format α Item State Error)

theorem read_append {state : State} {items : List Item} {rest : List (List α)} :
    format.read state (items.flatMap format.strings ++ rest) =
      format.read (items.foldl format.apply state) rest := by
  induction items generalizing state with
  | nil => rfl
  | cons item items inductionHypothesis =>
    rw [List.flatMap_cons, List.append_assoc, format.item, inductionHypothesis]
    rfl

/-- What is written is read back. -/
theorem read_strings {state : State} {items : List Item} :
    format.read state (items.flatMap format.strings) = .ok (items.foldl format.apply state) := by
  have read := @read_append _ _ _ _ format state items []
  rwa [List.append_nil, format.ended] at read

/-- The first strings are those of the first items, or they are not read. -/
theorem read_take {state : State} {items : List Item} {count : Nat} :
    (∃ whole, (items.flatMap format.strings).take count =
        (items.take whole).flatMap format.strings) ∨
      ∃ error, format.read state ((items.flatMap format.strings).take count) = .error error := by
  induction items generalizing state count with
  | nil => exact .inl ⟨0, by simp⟩
  | cons item items inductionHypothesis =>
    rw [List.flatMap_cons]
    obtain within | beyond := Nat.lt_or_ge count (format.strings item).length
    · rw [List.take_append_of_le_length (by omega)]
      obtain rfl | some_ := Nat.eq_zero_or_pos count
      · exact .inl ⟨0, by simp⟩
      · exact .inr (format.part state item count some_ within)
    · rw [List.take_append, List.take_of_length_le beyond, format.item]
      obtain ⟨whole, same⟩ | refused := @inductionHypothesis (format.apply state item)
        (count - (format.strings item).length)
      · exact .inl ⟨whole + 1, by simp [same]⟩
      · exact .inr refused

end Format

/-- The parser reads what is written as its value; what is cut is read as the items in front of the
cut, or refused when the cut is inside of an item. -/
def Faithful {Item Value Error : Type} (terminator : α) (strings : Item → List (List α))
    (parse : List α → Except Error Value) (value : List Item → Value) : Prop :=
  ∀ items, parse (terminated terminator (items.flatMap strings)) = .ok (value items) ∧
    ∀ cut, cut <+: terminated terminator (items.flatMap strings) →
      (∃ count, cut = terminated terminator ((items.take count).flatMap strings)) ∨
        ∃ error, parse cut = .error error

/-- A parser is faithful that reads the strings of a format and wants a terminator at the end. -/
theorem Format.faithful {Item State Error : Type} (format : Format α Item State Error)
    {parse : List α → Except Error State} {start : State}
    (whole : ∀ item, ∀ string ∈ format.strings item, terminator ∉ string)
    (reads : ∀ strings, (∀ string ∈ strings, terminator ∉ string) →
      parse (terminated terminator strings) = format.read start strings)
    (ends : ∀ bytes, bytes ≠ [] → bytes.getLast? ≠ some terminator →
      ∃ error, parse bytes = .error error) :
    Faithful terminator format.strings parse fun items => items.foldl format.apply start := by
  intro items
  have plain : ∀ string ∈ items.flatMap format.strings, terminator ∉ string := by
    intro string mem
    obtain ⟨item, -, inside⟩ := List.mem_flatMap.mp mem
    exact whole item string inside
  refine ⟨(reads _ plain).trans format.read_strings, fun cut part => ?_⟩
  obtain ⟨count, rfl⟩ | ⟨some_, open_⟩ := cut_terminated plain part
  · rw [reads _ fun string mem => plain string (List.mem_of_mem_take mem)]
    obtain ⟨items', same⟩ | refused := @read_take _ _ _ _ format start items count
    · exact .inl ⟨items', by rw [same]⟩
    · exact .inr refused
  · exact .inr (ends cut some_ open_)

end Idk.Logic
