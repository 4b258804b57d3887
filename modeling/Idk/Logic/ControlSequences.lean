import Mathlib.Data.List.Basic

/-!
# Control sequences in a text

Which bytes of a text belong to a control sequence, read off what follows each escape byte:

- a control function `ESC [` ends with its final byte, and gives way to another escape byte,
- a command `ESC ]` ends with a bell or with `ESC \`,
- the strings `ESC P`, `ESC X`, `ESC ^` and `ESC _` end with `ESC \`,
- a sequence with intermediate bytes ends with its final byte,
- any other byte after the escape byte ends the sequence itself.

Nothing else ends a sequence, a line break no more than the end of the text.
-/

namespace Idk.Logic.ControlSequences

/-- The bytes up to the final one of a control function. -/
def functionBytes : List UInt8 → Nat
  | [] => 0
  | byte :: rest =>
    if 0x40 ≤ byte ∧ byte ≤ 0x7e then 1 else if byte = 0x1b then 0 else functionBytes rest + 1

/-- The bytes up to the final one after intermediate bytes. -/
def intermediateBytes : List UInt8 → Nat
  | [] => 0
  | byte :: rest => if 0x30 ≤ byte ∧ byte ≤ 0x7e then 1 else intermediateBytes rest + 1

/-- The bytes of a string up to its terminator; `escaped` when the byte before is an escape. -/
def stringBytes (bell escaped : Bool) : List UInt8 → Nat
  | [] => 0
  | byte :: rest =>
    if escaped = true ∧ byte = 92 then 1
    else if escaped = false ∧ bell = true ∧ byte = 7 then 1
    else stringBytes bell (decide (byte = 0x1b)) rest + 1

/-- The bytes behind an escape byte that belong to its sequence. -/
def sequenceBytes : List UInt8 → Nat
  | [] => 0
  | byte :: rest =>
    if byte = 0x1b then 0
    else if byte = 91 then functionBytes rest + 1
    else if byte = 93 then stringBytes true false rest + 1
    else if byte = 80 ∨ byte = 88 ∨ byte = 94 ∨ byte = 95 then stringBytes false false rest + 1
    else if 0x20 ≤ byte ∧ byte ≤ 0x2f then intermediateBytes rest + 1
    else 1

/-- A byte, its place in the text and whether a control sequence has it. -/
structure Cell where
  place : Nat
  byte : UInt8
  inside : Bool
deriving DecidableEq, Repr

/-- The bytes of a text from `place` on, of which `left` still belong to a sequence. -/
def cells (place : Nat) : Nat → List UInt8 → List Cell
  | _, [] => []
  | left + 1, byte :: rest => ⟨place, byte, true⟩ :: cells (place + 1) left rest
  | 0, byte :: rest =>
    if byte = 0x1b then ⟨place, byte, true⟩ :: cells (place + 1) (sequenceBytes rest) rest
    else ⟨place, byte, false⟩ :: cells (place + 1) 0 rest

theorem cells_cons {place left : Nat} {byte : UInt8} {rest : List UInt8} :
    ∃ inside next, cells place left (byte :: rest) =
      ⟨place, byte, inside⟩ :: cells (place + 1) next rest := by
  cases left with
  | zero =>
    by_cases escape : byte = 0x1b
    · exact ⟨true, sequenceBytes rest, by rw [cells, if_pos escape]⟩
    · exact ⟨false, 0, by rw [cells, if_neg escape]⟩
  | succ left => exact ⟨true, left, rfl⟩

/-- The cells are the bytes of the text at their places. -/
theorem getElem?_cells {place left index : Nat} {text : List UInt8} :
    (cells place left text)[index]?.map (fun cell => (cell.place, cell.byte)) =
      text[index]?.map (fun byte => (place + index, byte)) := by
  induction text generalizing place left index with
  | nil => simp [cells]
  | cons byte rest inductionHypothesis =>
    obtain ⟨inside, next, same⟩ := @cells_cons place left byte rest
    rw [same]
    cases index with
    | zero => rfl
    | succ index =>
      rw [List.getElem?_cons_succ, List.getElem?_cons_succ, inductionHypothesis]
      simp only [Nat.add_assoc, Nat.add_comm 1]

/-- The parts between separators are stretches of the list without separators. -/
theorem mem_splitOnP {α : Type} {separates : α → Bool} {whole part : List α}
    (mem : part ∈ whole.splitOnP separates) :
    part <:+: whole ∧ ∀ symbol ∈ part, separates symbol = false := by
  suffices both : (∀ part ∈ whole.splitOnP separates, part <:+: whole ∧
      ∀ symbol ∈ part, separates symbol = false) ∧
      ∀ part ∈ (whole.splitOnP separates).head?, part <+: whole from both.1 part mem
  clear mem part
  induction whole with
  | nil => simp
  | cons symbol rest inductionHypothesis =>
    obtain ⟨parts, first⟩ := inductionHypothesis
    rw [List.splitOnP_cons_eq_if_modifyHead]
    by_cases separator : separates symbol = true
    · simp only [separator, if_true]
      refine ⟨fun part mem => ?_, by simp⟩
      obtain rfl | later := List.mem_cons.mp mem
      · simp
      · exact ⟨(parts part later).1.trans (List.suffix_cons _ _).isInfix, (parts part later).2⟩
    · simp only [separator]
      cases split : rest.splitOnP separates with
      | nil => exact absurd split (List.splitOnP_ne_nil _ _)
      | cons head others =>
        rw [split] at parts first
        have prefix_ : symbol :: head <+: symbol :: rest :=
          (List.prefix_cons_inj _).mpr (first head rfl)
        constructor
        · intro part mem
          obtain rfl | later := List.mem_cons.mp mem
          · refine ⟨prefix_.isInfix, ?_⟩
            intro other inside
            obtain rfl | old := List.mem_cons.mp inside
            · simpa using separator
            · exact (parts head List.mem_cons_self).2 other old
          · have old := parts part (List.mem_cons_of_mem _ later)
            exact ⟨old.1.trans (List.suffix_cons _ _).isInfix, old.2⟩
        · intro part mem
          cases mem
          exact prefix_

/-- A stretch of the cells of a text has the bytes of the text from its start on. -/
theorem getElem?_infix {line : List Cell} {text : List UInt8} (part : line <:+: cells 0 0 text) :
    ∃ start, ∀ index, (line)[index]?.map (fun cell => (cell.place, cell.byte)) =
      if index < line.length then text[start + index]?.map (fun byte => (start + index, byte))
      else none := by
  obtain ⟨before, after, same⟩ := part
  refine ⟨before.length, fun index => ?_⟩
  have known := @getElem?_cells 0 0 (before.length + index) text
  split
  · rename_i within
    rw [← same, List.append_assoc, List.getElem?_append_right (by omega),
      Nat.add_sub_cancel_left, List.getElem?_append_left within, Nat.zero_add] at known
    exact known
  · rename_i outside
    rw [List.getElem?_eq_none (by omega)]
    rfl

end Idk.Logic.ControlSequences
