import Idk.Logic.ControlSequences
import Idk.Logic.Json
import Idk.Verified.Run.Diagnostics

/-!
# The lines that are handed to the grammar

The parser takes control sequences out of the log before it looks for line breaks.  A line
break within a sequence is lost with it, and the text after it continues the line before.

**Main results:**

- `handed_lines`: the handed lines are the readable ones of the text outside of sequences.
- `problem_lines_exact`: no handed line crosses a line break of the log iff no readable line has
  text on both sides of a line break that a control sequence takes with it.
-/

namespace Idk

open Idk.Logic.ControlSequences
open ProblemParser

/-! ## The parser and the places of its bytes -/

/-- The parser with the place in the log of every byte of its line, and the places of the lines
    that were handed to the grammar. -/
structure Traced (δ : Type) where
  parser : ProblemParser δ
  places : List Nat
  handed : List (List Nat)

section

variable {δ : Type} (grammar : Grammar δ)

namespace Traced

/-- The places of the line if it is handed on as it stands. -/
def offered (traced : Traced δ) : List (List Nat) :=
  if traced.parser.acceptedText.isSome then [traced.places] else []

/-- `feedByte` at a place. -/
def next (traced : Traced δ) (place : Nat) (byte : UInt8) : Traced δ :=
  let marked := traced.parser.marked byte
  let parser := traced.parser.feedByte grammar (place + 1) byte
  match (marked.controls.consume byte).2 with
  | none => { traced with parser := parser }
  | some kept =>
    if kept = 10 then
      { parser := parser
        places := []
        handed := traced.handed ++ { traced with parser := marked }.offered }
    else if marked.line.length < maxLine then
      { traced with parser := parser, places := traced.places ++ [place] }
    else { traced with parser := parser }

def read (traced : Traced δ) (place : Nat) : List UInt8 → Traced δ
  | [] => traced
  | byte :: rest => (traced.next grammar place byte).read (place + 1) rest

def start (run : RunInfo) : Traced δ where
  parser := ProblemParser.new grammar run
  places := []
  handed := []

end Traced

/-- The places of the bytes of every line that a log hands to the grammar. -/
def handedLines (run : RunInfo) (log : List UInt8) : List (List Nat) :=
  let traced := (Traced.start grammar run).read grammar 0 log
  traced.handed ++ traced.offered

end

theorem Traced.parser_read {δ : Type} {grammar : Grammar δ} (traced : Traced δ) (place : Nat)
    (log : List UInt8) :
    (traced.read grammar place log).parser = traced.parser.feed grammar place log := by
  induction log generalizing traced place with
  | nil => rfl
  | cons byte rest inductionHypothesis =>
    have same : (traced.next grammar place byte).parser =
        traced.parser.feedByte grammar (place + 1) byte := by
      unfold Traced.next
      dsimp only
      split
      · rfl
      · split <;> (try split) <;> rfl
    rw [Traced.read, ProblemParser.feed, inductionHypothesis, same]

/-! ## Line breaks outside of control sequences -/

/-- The line ends here. -/
def ends (cell : Cell) : Bool := !cell.inside && (cell.byte == 10 || cell.byte == 13)

/-- The lines of a log, each with the control sequences in it. -/
def visibleLines (log : List UInt8) : List (List Cell) := (cells 0 0 log).splitOnP ends

/-- What is outside of control sequences. -/
def text (line : List Cell) : List Cell := line.filter (!·.inside)

def placesOf (line : List Cell) : List Nat := (text line).map (·.place)

/-- A control character that is no tab. -/
def stray (cell : Cell) : Bool := (cell.byte < 0x20 && cell.byte != 9) || cell.byte == 0x7f

/-- A text that names what it is about: UTF-8 without characters that are not shown. -/
def readable (bytes : List UInt8) : Bool :=
  match String.fromUTF8? ⟨bytes.toArray⟩ with
  | none => false
  | some text => !text.toList.any forbiddenCharacter

/-- The line is short enough, has no stray control characters and is readable. -/
def Reads (line : List Cell) : Bool :=
  (text line).length ≤ maxLine && !(text line).any stray && readable ((text line).map (·.byte))

/-! ## Simulation -/

/-- The bytes of a line that the parser keeps. -/
def keptCells (line : List Cell) : List Cell := (text line).filter (!stray ·)

/-- The parser holds the line so far. -/
structure Held {δ : Type} (line : List Cell) (traced : Traced δ) : Prop where
  bytes : traced.parser.line = ((keptCells line).take maxLine).map (·.byte)
  places : traced.places = ((keptCells line).take maxLine).map (·.place)
  limited : traced.parser.lineLimited = decide (maxLine < (keptCells line).length)
  ambiguous : traced.parser.lineAmbiguous = (text line).any stray

/-- How many of the bytes to come belong to the sequence that is open. -/
def remaining : Escape → List UInt8 → Nat
  | .plain, _ => 0
  | .start, rest => sequenceBytes rest
  | .intermediate, rest => intermediateBytes rest
  | .csi, rest => functionBytes rest
  | .osc, rest => stringBytes true false rest
  | .oscTerminator, rest => stringBytes true true rest
  | .string, rest => stringBytes false false rest
  | .stringTerminator, rest => stringBytes false true rest

/-- A byte of the open sequence is taken, and leaves one byte less to come. -/
theorem consume_inside {controls : Controls} {byte : UInt8} {rest : List UInt8} {left : Nat}
    (open_ : remaining controls.state (byte :: rest) = left + 1) :
    (controls.consume byte).2 = none ∧
      remaining (controls.consume byte).1.state rest = left := by
  obtain ⟨state, removed⟩ := controls
  cases state with
  | plain => cases open_
  | start =>
    simp only [remaining, sequenceBytes] at open_
    simp only [Controls.consume, Controls.toState, true_and]
    split_ifs at open_ ⊢ <;> simp_all [remaining]
  | intermediate =>
    simp only [remaining, intermediateBytes] at open_
    simp only [Controls.consume, Controls.toState, true_and]
    split_ifs at open_ ⊢ <;> simp_all [remaining]
  | csi =>
    simp only [remaining, functionBytes] at open_
    simp only [Controls.consume, Controls.toState, true_and]
    split_ifs at open_ ⊢ <;> simp_all [remaining]
  | osc | oscTerminator | string | stringTerminator =>
    simp only [remaining, stringBytes] at open_
    simp only [Controls.consume, Controls.toState, true_and]
    split_ifs at open_ ⊢ <;> simp_all [remaining]

/-- Where no byte of a sequence is left, there is text or the next sequence. -/
theorem remaining_zero {state : Escape} {byte : UInt8} {rest : List UInt8}
    (closed : remaining state (byte :: rest) = 0) :
    state = .plain ∨ (byte = 0x1b ∧ (state = .start ∨ state = .csi)) := by
  cases state with
  | plain => exact .inl rfl
  | start =>
    simp only [remaining, sequenceBytes] at closed
    split_ifs at closed with escape
    exact .inr ⟨escape, .inl rfl⟩
  | csi =>
    simp only [remaining, functionBytes] at closed
    split_ifs at closed with final escape
    exact .inr ⟨escape, .inr rfl⟩
  | intermediate =>
    simp only [remaining, intermediateBytes] at closed
    split_ifs at closed
  | osc | oscTerminator | string | stringTerminator =>
    simp only [remaining, stringBytes] at closed
    split_ifs at closed

/-- An escape byte begins the next sequence. -/
theorem consume_escape {controls : Controls}
    (state : controls.state = .plain ∨ controls.state = .start ∨ controls.state = .csi) :
    (controls.consume 0x1b).2 = none ∧ (controls.consume 0x1b).1.state = .start := by
  obtain ⟨found, removed⟩ := controls
  obtain rfl | rfl | rfl := state <;> exact ⟨rfl, rfl⟩

/-- What is kept of the text outside of sequences. -/
theorem consume_text {controls : Controls} {byte : UInt8} {place : Nat}
    (plain : controls.state = .plain) (other : byte ≠ 0x1b) :
    (controls.consume byte).1.state = .plain ∧
      (controls.consume byte).2 =
        if ends ⟨place, byte, false⟩ then some 10
        else if stray ⟨place, byte, false⟩ then none else some byte := by
  obtain ⟨found, removed⟩ := controls
  cases plain
  simp only [Controls.consume, ends, stray, if_neg other]
  by_cases carriage : byte = 13
  · simp [carriage]
  by_cases newline : byte = 10
  · simp [newline]
  by_cases tab : byte = 9
  · simp [tab]
  -- what is left is a character, or a control character of one byte
  have range : (0x20 ≤ byte ∧ byte ≤ 0x7e ∨ 0x80 ≤ byte) ↔ ¬ byte < 0x20 ∧ byte ≠ 0x7f := by
    simp only [UInt8.le_iff_toNat_le, UInt8.lt_iff_toNat_lt, ← UInt8.toNat_inj, ne_eq,
      UInt8.reduceToNat]
    omega
  by_cases shown : 0x20 ≤ byte ∧ byte ≤ 0x7e ∨ 0x80 ≤ byte
  · have above := range.mp shown
    simp [carriage, newline, shown, above]
  · have below : byte < 0x20 ∨ byte = 0x7f := by
      by_cases low : byte < 0x20
      · exact .inl low
      · exact .inr (by simpa [low] using mt range.mpr shown)
    simp only [carriage, newline, tab, shown, or_self, if_false]
    obtain low | rfl := below
    · simp [low, carriage, newline, tab]
    · simp

/-! ## The handed lines -/

variable {δ : Type} {grammar : Grammar δ}

@[simp] theorem text_append (first second : List Cell) :
    text (first ++ second) = text first ++ text second := List.filter_append ..

@[simp] theorem keptCells_append (first second : List Cell) :
    keptCells (first ++ second) = keptCells first ++ keptCells second := by
  simp [keptCells]

theorem isSome_acceptedText (parser : ProblemParser δ) :
    parser.acceptedText.isSome =
      (readable parser.line && !parser.lineLimited && !parser.lineAmbiguous) := by
  unfold acceptedText readable
  cases String.fromUTF8? ⟨parser.line.toArray⟩ with
  | none => rfl
  | some text =>
    dsimp only
    cases text.toList.any forbiddenCharacter <;> cases parser.lineLimited <;>
      cases parser.lineAmbiguous <;> rfl

/-- A line is offered to the grammar exactly if it reads. -/
theorem Held.offered {line : List Cell} {traced : Traced δ} (held : Held line traced) :
    traced.offered = ([line].filter Reads).map placesOf := by
  obtain ⟨bytes, places, limited, ambiguous⟩ := held
  have accepted := isSome_acceptedText traced.parser
  rw [bytes, limited, ambiguous] at accepted
  by_cases strays : (text line).any stray = true
  · have reads : Reads line = false := by simp [Reads, strays]
    simp [Traced.offered, accepted, strays, reads]
  · have clean : (text line).any stray = false := by simpa using strays
    have kept : keptCells line = text line := by
      refine List.filter_eq_self.mpr fun cell mem => ?_
      simp only [List.any_eq_false] at clean
      simp [clean cell mem]
    rw [kept] at accepted places
    by_cases long : maxLine < (text line).length
    · have reads : Reads line = false := by simp [Reads, Nat.not_le.mpr long]
      simp [Traced.offered, accepted, long, reads]
    · have whole : (text line).take maxLine = text line := List.take_of_length_le (by omega)
      have reads : Reads line = traced.parser.acceptedText.isSome := by
        simp [Reads, accepted, whole, clean, long, Nat.le_of_not_lt long]
      rw [whole] at places
      by_cases offered : traced.parser.acceptedText.isSome = true
      · simp [Traced.offered, reads, offered, places, placesOf]
      · simp [Traced.offered, reads, offered]

theorem marked_text {parser : ProblemParser δ} {byte : UInt8} {place : Nat}
    (plain : parser.controls.state = .plain) (other : byte ≠ 0x1b)
    (within : ends ⟨place, byte, false⟩ = false) :
    parser.marked byte =
      if stray ⟨place, byte, false⟩ then { parser with lineAmbiguous := true } else parser := by
  simp only [ends, Bool.not_false, Bool.true_and, Bool.or_eq_false_iff, beq_eq_false_iff_ne] at within
  simp only [ProblemParser.marked, stray, plain]
  by_cases tab : byte = 9
  · simp [tab]
  · simp [tab, within, other]

theorem unmarked {parser : ProblemParser δ} {byte : UInt8}
    (other : parser.controls.state ≠ .plain ∨ byte = 0x1b ∨ byte = 10 ∨ byte = 13) :
    parser.marked byte = parser := by
  unfold ProblemParser.marked
  rw [if_neg]
  rintro ⟨plain, -, newline, carriage, -, escape⟩
  simp_all

/-- A byte of a sequence leaves the line as it is. -/
theorem Held.inside {line : List Cell} {traced : Traced δ} (held : Held line traced) {place : Nat}
    {byte : UInt8} (unmarked : traced.parser.marked byte = traced.parser)
    (none_ : (traced.parser.controls.consume byte).2 = none) :
    Held (line ++ [⟨place, byte, true⟩]) (traced.next grammar place byte) ∧
      (traced.next grammar place byte).handed = traced.handed ∧
      (traced.next grammar place byte).parser.controls =
        (traced.parser.controls.consume byte).1 := by
  have next : traced.next grammar place byte = { traced with
      parser := { traced.parser with controls := (traced.parser.controls.consume byte).1 } } := by
    simp only [Traced.next, feedByte, unmarked, none_, keep]
  rw [next]
  refine ⟨⟨?_, ?_, ?_, ?_⟩, rfl, rfl⟩
  · simpa [text, keptCells] using held.bytes
  · simpa [text, keptCells] using held.places
  · simpa [text, keptCells] using held.limited
  · simpa [text, keptCells] using held.ambiguous

/-- A line break hands the line on and begins the next one. -/
theorem Held.ending {traced : Traced δ} {place : Nat} {byte : UInt8}
    (plain : traced.parser.controls.state = .plain)
    (last : ends ⟨place, byte, false⟩ = true) :
    Held [] (traced.next grammar place byte) ∧
      (traced.next grammar place byte).handed = traced.handed ++ traced.offered ∧
      (traced.next grammar place byte).parser.controls.state = .plain := by
  have newline : byte = 10 ∨ byte = 13 := by simpa [ends] using last
  have other : byte ≠ 0x1b := by
    rintro rfl
    simp at newline
  have same : traced.parser.marked byte = traced.parser :=
    unmarked (by obtain rfl | rfl := newline <;> simp)
  obtain ⟨state, kept⟩ := @consume_text _ _ place plain other
  rw [if_pos last] at kept
  have completed := @completeLine_completed _ grammar
    ({ traced.parser with controls := (traced.parser.controls.consume byte).1 } : ProblemParser δ)
  have next : traced.next grammar place byte =
      { parser := { (({ traced.parser with
            controls := (traced.parser.controls.consume byte).1 } : ProblemParser δ).completeLine
              grammar) with lineOffset := place + 1 }
        places := []
        handed := traced.handed ++ traced.offered } := by
    simp only [Traced.next, feedByte, same, kept, keep, if_true]
  rw [next]
  refine ⟨⟨?_, ?_, ?_, ?_⟩, rfl, ?_⟩
  · simpa [text, keptCells] using completed.line
  · simp [text, keptCells]
  · simpa [text, keptCells] using completed.limited
  · simpa [text, keptCells] using completed.ambiguous
  · exact completed.state.trans state

/-- Any other byte of the text goes on with the line. -/
theorem Held.going {line : List Cell} {traced : Traced δ} (held : Held line traced) {place : Nat}
    {byte : UInt8} (plain : traced.parser.controls.state = .plain) (other : byte ≠ 0x1b)
    (within : ends ⟨place, byte, false⟩ = false) :
    Held (line ++ [⟨place, byte, false⟩]) (traced.next grammar place byte) ∧
      (traced.next grammar place byte).handed = traced.handed ∧
      (traced.next grammar place byte).parser.controls.state = .plain := by
  have marked := @marked_text _ _ _ place plain other within
  obtain ⟨state, kept⟩ := @consume_text _ _ place plain other
  obtain ⟨bytes, places, limited, ambiguous⟩ := held
  rw [if_neg (by simp [within])] at kept
  by_cases strays : stray ⟨place, byte, false⟩ = true
  · rw [if_pos strays] at kept marked
    have next : traced.next grammar place byte = { traced with
        parser := { traced.parser with
          lineAmbiguous := true
          controls := (traced.parser.controls.consume byte).1 } } := by
      simp only [Traced.next, feedByte, marked, kept, keep]
    rw [next]
    refine ⟨⟨?_, ?_, ?_, ?_⟩, rfl, state⟩
    · simpa [text, keptCells, strays] using bytes
    · simpa [text, keptCells, strays] using places
    · simpa [text, keptCells, strays] using limited
    · simp [text, strays]
  · rw [if_neg strays] at kept marked
    have character : byte ≠ 10 := by
      rintro rfl
      simp [ends] at within
    have longer : keptCells (line ++ [⟨place, byte, false⟩]) =
        keptCells line ++ [⟨place, byte, false⟩] := by
      simp [text, keptCells, strays]
    have calm : (text (line ++ [⟨place, byte, false⟩])).any stray = (text line).any stray := by
      simp [text, strays]
    have length : traced.parser.line.length = min maxLine (keptCells line).length := by
      rw [bytes, List.length_map, List.length_take]
    by_cases room : (keptCells line).length < maxLine
    · have fits : traced.parser.line.length < maxLine := by omega
      have next : traced.next grammar place byte = { traced with
          parser := { traced.parser with
            line := traced.parser.line ++ [byte]
            controls := (traced.parser.controls.consume byte).1 }
          places := traced.places ++ [place] } := by
        simp only [Traced.next, feedByte, marked, kept, keep, if_neg character, if_pos fits]
      rw [List.take_of_length_le (by omega)] at bytes places
      have whole : (keptCells line ++ [(⟨place, byte, false⟩ : Cell)]).take maxLine =
          keptCells line ++ [⟨place, byte, false⟩] := by
        apply List.take_of_length_le
        simp only [List.length_append, List.length_singleton]
        omega
      rw [next]
      refine ⟨⟨?_, ?_, ?_, ?_⟩, rfl, state⟩
      · rw [longer, whole]
        simp [bytes]
      · rw [longer, whole]
        simp [places]
      · have short : ¬ maxLine < (keptCells line).length := by omega
        have still : ¬ maxLine < (keptCells line).length + 1 := by omega
        simp [longer, limited, short, still]
      · rw [calm]
        exact ambiguous
    · have full : ¬ traced.parser.line.length < maxLine := by omega
      have next : traced.next grammar place byte = { traced with
          parser := { traced.parser with
            lineLimited := true
            result.limited := true
            controls := (traced.parser.controls.consume byte).1 } } := by
        simp only [Traced.next, feedByte, marked, kept, keep, if_neg character, if_neg full]
      have cut : (keptCells line ++ [(⟨place, byte, false⟩ : Cell)]).take maxLine =
          (keptCells line).take maxLine := List.take_append_of_le_length (by omega)
      rw [next]
      refine ⟨⟨?_, ?_, ?_, ?_⟩, rfl, state⟩
      · rw [longer, cut]
        exact bytes
      · rw [longer, cut]
        exact places
      · have long : maxLine < (keptCells line).length + 1 := by omega
        simp [longer, long]
      · rw [calm]
        exact ambiguous

/-- The handed lines of what is left of a log are the readable ones, the first of which begins
    with the line so far. -/
theorem handed_read {line : List Cell} {traced : Traced δ} (held : Held line traced)
    (unbroken : ∀ cell ∈ line, ends cell = false) (place : Nat) (rest : List UInt8) :
    let last := traced.read grammar place rest
    last.handed ++ last.offered = traced.handed ++
      (((line ++ cells place (remaining traced.parser.controls.state rest) rest).splitOnP
        ends).filter Reads).map placesOf := by
  induction rest generalizing line traced place with
  | nil =>
    simp only [Traced.read, cells, List.append_nil]
    rw [List.splitOnP_eq_singleton unbroken, held.offered]
  | cons byte rest inductionHypothesis =>
    have grown : ∀ inside, ends ⟨place, byte, inside⟩ = false →
        ∀ cell ∈ line ++ [⟨place, byte, inside⟩], ends cell = false := by
      intro inside within cell mem
      obtain old | new := List.mem_append.mp mem
      · exact unbroken cell old
      · exact List.mem_singleton.mp new ▸ within
    cases left : remaining traced.parser.controls.state (byte :: rest) with
    | succ left =>
      obtain ⟨none_, fewer⟩ := consume_inside left
      have open_ : traced.parser.controls.state ≠ .plain := by
        intro plain
        rw [plain] at left
        cases left
      obtain ⟨inside, handed, controls⟩ :=
        @Held.inside _ grammar _ _ held place _ (unmarked (.inl open_)) none_
      have rest_ := inductionHypothesis inside (grown true rfl) (place + 1)
      rw [controls, fewer, handed, List.append_assoc] at rest_
      exact rest_
    | zero =>
      by_cases escape : byte = 0x1b
      · subst escape
        have begins : traced.parser.controls.state = .plain ∨
            traced.parser.controls.state = .start ∨ traced.parser.controls.state = .csi := by
          obtain plain | ⟨-, other⟩ := remaining_zero left
          · exact .inl plain
          · exact .inr other
        obtain ⟨none_, state⟩ := consume_escape begins
        obtain ⟨inside, handed, controls⟩ :=
          @Held.inside _ grammar _ _ held place _ (unmarked (.inr (.inl rfl))) none_
        have rest_ := inductionHypothesis inside (grown true rfl) (place + 1)
        rw [controls, state, handed, List.append_assoc] at rest_
        exact rest_
      · have plain : traced.parser.controls.state = .plain := by
          obtain plain | ⟨same, -⟩ := remaining_zero left
          · exact plain
          · exact absurd same escape
        rw [cells, if_neg escape]
        cases last : ends ⟨place, byte, false⟩ with
        | true =>
          obtain ⟨empty, handed, state⟩ := @Held.ending _ grammar _ _ _ plain last
          have rest_ := inductionHypothesis empty
            (fun _ absent => absurd absent List.not_mem_nil) (place + 1)
          rw [state, handed, held.offered, List.nil_append] at rest_
          rw [List.splitOnP_append_cons_of_forall_mem unbroken _ last]
          refine rest_.trans ?_
          rw [List.append_assoc, ← List.map_append, ← List.filter_append]
          rfl
        | false =>
          obtain ⟨longer, handed, state⟩ :=
            @Held.going _ grammar _ _ held _ _ plain escape last
          have rest_ := inductionHypothesis longer (grown false last) (place + 1)
          rw [state, handed, List.append_assoc] at rest_
          exact rest_

/-- The handed lines are the readable ones of the text outside of control sequences. -/
theorem handed_lines (run : RunInfo) (log : List UInt8) :
    handedLines grammar run log = ((visibleLines log).filter Reads).map placesOf := by
  have empty : Held [] (Traced.start grammar run) := by
    constructor <;> simp [Traced.start, ProblemParser.new, keptCells, text]
  exact handed_read empty nofun 0 log

/-! ## Line breaks within control sequences -/

/-- No newline byte of the log lies between two of the places. -/
def Unbroken (log : List UInt8) (places : List Nat) : Prop :=
  ∀ first ∈ places, ∀ last ∈ places, ∀ place, first ≤ place → place ≤ last →
    log[place]? ≠ some 10

/-- A control sequence takes a newline byte with it that has text of the line on both sides. -/
def Torn (line : List Cell) : Prop :=
  ∃ before cell after, line = before ++ cell :: after ∧ cell.byte = 10 ∧ text before ≠ [] ∧
    text after ≠ []

theorem mem_placesOf {line : List Cell} {place : Nat} (mem : place ∈ placesOf line) :
    ∃ (index : Nat) (cell : Cell), (line)[index]? = some cell ∧ cell.inside = false ∧
      cell.place = place := by
  obtain ⟨cell, there, rfl⟩ := List.mem_map.mp mem
  simp only [text, List.mem_filter, Bool.not_eq_true'] at there
  obtain ⟨index, found⟩ := List.mem_iff_getElem?.mp there.1
  exact ⟨index, cell, found, there.2, rfl⟩

theorem text_ne_nil {line : List Cell} {cell : Cell} (mem : cell ∈ line)
    (outside : cell.inside = false) : text line ≠ [] := by
  refine List.ne_nil_of_mem (a := cell) ?_
  simp [text, mem, outside]

theorem exists_text {line : List Cell} (some_ : text line ≠ []) :
    ∃ cell ∈ line, cell.inside = false := by
  obtain ⟨cell, mem⟩ := List.exists_mem_of_ne_nil _ some_
  simp only [text, List.mem_filter, Bool.not_eq_true'] at mem
  exact ⟨cell, mem⟩

/-- Between two bytes of a line are the bytes of the log between their places. -/
theorem unbroken_iff {log : List UInt8} {line : List Cell} (mem : line ∈ visibleLines log) :
    Unbroken log (placesOf line) ↔ ¬ Torn line := by
  obtain ⟨part, within⟩ := mem_splitOnP mem
  obtain ⟨start, known⟩ := getElem?_infix part
  have placed : ∀ index cell, (line)[index]? = some cell →
      cell.place = start + index ∧ log[start + index]? = some cell.byte := by
    intro index cell there
    have same := known index
    obtain ⟨bound, -⟩ := List.getElem?_eq_some_iff.mp there
    rw [there, if_pos bound] at same
    cases byte : log[start + index]? with
    | none =>
      rw [byte] at same
      cases same
    | some found =>
      rw [byte] at same
      simp only [Option.map_some, Option.some.injEq, Prod.mk.injEq] at same
      exact ⟨same.1, congrArg some same.2.symm⟩
  constructor
  · rintro unbroken ⟨before, cell, after, rfl, newline, left, right⟩
    obtain ⟨first, firstMem, firstText⟩ := exists_text left
    obtain ⟨last, lastMem, lastText⟩ := exists_text right
    obtain ⟨low, firstAt⟩ := List.mem_iff_getElem?.mp firstMem
    obtain ⟨high, lastAt⟩ := List.mem_iff_getElem?.mp lastMem
    obtain ⟨lowBound, -⟩ := List.getElem?_eq_some_iff.mp firstAt
    have atFirst := placed low first (by rw [List.getElem?_append_left lowBound, firstAt])
    have atCell := placed before.length cell (by simp)
    have atLast := placed (before.length + (high + 1)) last (by
      rw [List.getElem?_append_right (by omega), Nat.add_sub_cancel_left,
        List.getElem?_cons_succ, lastAt])
    have shownFirst : first.place ∈ placesOf (before ++ cell :: after) :=
      List.mem_map_of_mem (by simp [text, firstMem, firstText])
    have shownLast : last.place ∈ placesOf (before ++ cell :: after) :=
      List.mem_map_of_mem (by simp [text, lastMem, lastText])
    refine unbroken first.place shownFirst last.place shownLast cell.place ?_ ?_ ?_
    · omega
    · omega
    · rw [atCell.1, atCell.2, newline]
  · intro whole first firstMem last lastMem place above below newline
    obtain ⟨left, leftCell, leftAt, leftText, rfl⟩ := mem_placesOf firstMem
    obtain ⟨right, rightCell, rightAt, rightText, rfl⟩ := mem_placesOf lastMem
    have atLeft := placed left leftCell leftAt
    have atRight := placed right rightCell rightAt
    obtain ⟨rightBound, -⟩ := List.getElem?_eq_some_iff.mp rightAt
    -- the newline byte is the one of a cell of the line, which no line break ends
    obtain ⟨index, rfl⟩ : ∃ index, place = start + index := ⟨place - start, by omega⟩
    have bound : index < line.length := by omega
    have there : (line)[index]? = some (line)[index] := List.getElem?_eq_getElem bound
    have byte : (line)[index].byte = 10 := by
      have same := (placed index (line)[index] there).2
      rw [newline] at same
      exact (Option.some.inj same).symm
    have inside : (line)[index].inside = true := by
      have goes := within (line)[index] (List.getElem_mem bound)
      simpa [ends, byte] using goes
    have afterLeft : left ≠ index := by
      rintro rfl
      rw [there] at leftAt
      cases leftAt
      rw [inside] at leftText
      cases leftText
    have beforeRight : right ≠ index := by
      rintro rfl
      rw [there] at rightAt
      cases rightAt
      rw [inside] at rightText
      cases rightText
    refine whole ⟨line.take index, (line)[index], line.drop (index + 1), ?_, byte, ?_, ?_⟩
    · simp
    · refine @text_ne_nil _ leftCell (List.mem_iff_getElem?.mpr ⟨left, ?_⟩) leftText
      rw [List.getElem?_take_of_lt (by omega), leftAt]
    · refine @text_ne_nil _ rightCell
        (List.mem_iff_getElem?.mpr ⟨right - (index + 1), ?_⟩) rightText
      rw [List.getElem?_drop, ← rightAt]
      congr 1
      omega

/-! ## What the grammar is given -/

/-- A grammar that keeps the lines it is given. -/
def recorder : Grammar (List String) where
  empty := []
  parseLine _ line found := (found ++ [line], false)
  discard := id

/-- The lines that a log hands to its grammar. -/
def recordedLines (run : RunInfo) (log : List UInt8) : List String :=
  (((new recorder run).feed recorder 0 log).completeLine recorder).result.problems

/-- The bytes of a log at some places. -/
def bytesAt (log : List UInt8) (places : List Nat) : List UInt8 := places.filterMap (log[·]?)

theorem safeChars_whole {room : Nat} {chars : List Char}
    (shown : chars.any forbiddenCharacter = false) (fits : Logic.Json.bytes chars ≤ room) :
    safeChars room chars = chars := by
  induction chars generalizing room with
  | nil => rfl
  | cons char rest inductionHypothesis =>
    simp only [List.any_cons, Bool.or_eq_false_iff] at shown
    rw [Logic.Json.bytes_cons] at fits
    rw [safeChars, shown.1, if_neg Bool.false_ne_true, if_pos (by omega),
      inductionHypothesis shown.2 (by omega)]

/-- A readable line is handed on as it is. -/
theorem utf8_acceptedText {parser : ProblemParser δ} {text : String}
    (accepted : parser.acceptedText = some text) (short : parser.line.length ≤ maxLine) :
    utf8 (safeUtf8 text maxLine) = parser.line := by
  unfold acceptedText at accepted
  cases decoded : String.fromUTF8? ⟨parser.line.toArray⟩ with
  | none =>
    rw [decoded] at accepted
    cases accepted
  | some found =>
    rw [decoded] at accepted
    simp only [Option.ite_none_left_eq_some, Option.some.injEq, Bool.or_eq_true, not_or,
      Bool.not_eq_true] at accepted
    obtain ⟨⟨⟨shown, -⟩, -⟩, rfl⟩ := accepted
    have bytes : found.toByteArray = ⟨parser.line.toArray⟩ := by
      simp only [String.fromUTF8?, Option.dite_none_right_eq_some, Option.some.injEq] at decoded
      obtain ⟨valid, rfl⟩ := decoded
      rfl
    have size : Logic.Json.bytes found.toList ≤ maxLine := by
      rw [Logic.Json.bytes_toList, String.utf8ByteSize, bytes]
      exact short
    rw [safeUtf8, safeChars_whole shown size, String.ofList_toList, utf8, bytes]

/-- The lines so far, and the bytes of the one that is being read. -/
structure Recorded (log : List UInt8) (traced : Traced (List String)) : Prop where
  lines : traced.parser.result.problems.map utf8 = traced.handed.map (bytesAt log)
  line : traced.parser.line = bytesAt log traced.places
  short : traced.parser.line.length ≤ maxLine

theorem consume_kept {controls : Controls} {byte kept : UInt8}
    (same : (controls.consume byte).2 = some kept) : kept = byte ∨ kept = 10 := by
  obtain ⟨state, removed⟩ := controls
  cases state <;> simp only [Controls.consume, reduceCtorEq] at same
  split_ifs at same
  · exact .inr (Option.some.inj same).symm
  · exact .inl (Option.some.inj same).symm

theorem Recorded.completeLine {log : List UInt8} {traced : Traced (List String)}
    (recorded : Recorded log traced) :
    (traced.parser.completeLine recorder).result.problems.map utf8 =
      (traced.handed ++ traced.offered).map (bytesAt log) := by
  rw [(completeLine_completed traced.parser).problems]
  cases accepted : traced.parser.acceptedText with
  | none => simpa [Traced.offered, accepted, recorder] using recorded.lines
  | some text =>
    have given := utf8_acceptedText accepted recorded.short
    simp [Traced.offered, accepted, recorder, recorded.lines, given, recorded.line]

theorem Recorded.next {log : List UInt8} {traced : Traced (List String)}
    (recorded : Recorded log traced) {place : Nat} {byte : UInt8}
    (there : log[place]? = some byte) : Recorded log (traced.next recorder place byte) := by
  have marked : Recorded log { traced with parser := traced.parser.marked byte } := by
    unfold ProblemParser.marked
    split <;> exact ⟨recorded.lines, recorded.line, recorded.short⟩
  unfold Traced.next feedByte
  dsimp only
  generalize traced.parser.marked byte = parser at marked
  have consumed : Recorded log
      { traced with parser := { parser with controls := (parser.controls.consume byte).1 } } :=
    ⟨marked.lines, marked.line, marked.short⟩
  cases same : (parser.controls.consume byte).2 with
  | none => exact consumed
  | some kept =>
    by_cases newline : kept = 10
    · have completed := @completeLine_completed _ recorder
        ({ parser with controls := (parser.controls.consume byte).1 } :
          ProblemParser (List String))
      simp only [keep, if_pos newline]
      refine ⟨consumed.completeLine, ?_, ?_⟩
      · exact completed.line
      · dsimp only
        rw [completed.line]
        exact Nat.zero_le _
    · have raw : kept = byte := (consume_kept same).resolve_right newline
      simp only [keep, if_neg newline]
      by_cases room : parser.line.length < maxLine
      · rw [if_pos room, if_pos room]
        have line : parser.line = bytesAt log traced.places := marked.line
        refine ⟨marked.lines, ?_, ?_⟩
        · simp [line, bytesAt, there, raw]
        · simp only [List.length_append, List.length_singleton]
          omega
      · rw [if_neg room, if_neg room]
        exact ⟨marked.lines, marked.line, marked.short⟩

theorem Recorded.read {log : List UInt8} {traced : Traced (List String)}
    (recorded : Recorded log traced) {place : Nat} {rest : List UInt8}
    (left : log.drop place = rest) : Recorded log (traced.read recorder place rest) := by
  induction rest generalizing traced place with
  | nil => exact recorded
  | cons byte rest inductionHypothesis =>
    have there : log[place]? = some byte := by
      rw [← List.head?_drop, left]
      rfl
    refine inductionHypothesis (recorded.next there) ?_
    rw [← List.drop_drop, left]
    rfl

/-- The lines given to the grammar are the bytes of the log at their places. -/
theorem recorded_handed (run : RunInfo) (log : List UInt8) :
    (recordedLines run log).map utf8 = (handedLines recorder run log).map (bytesAt log) := by
  have start : Recorded log (Traced.start recorder run) :=
    ⟨rfl, rfl, Nat.zero_le _⟩
  have last := (@Recorded.read _ _ start 0 log rfl).completeLine
  rw [Traced.parser_read] at last
  exact last

/-! ## Lines across line breaks -/

/-- The places of every handed line are its bytes' places, and no newline byte of the log lies
    between them exactly if no readable line is torn. -/
theorem problem_lines_exact (run : RunInfo) (log : List UInt8) :
    (recordedLines run log).map utf8 = (handedLines recorder run log).map (bytesAt log) ∧
      handedLines grammar run log = handedLines recorder run log ∧
      ((∀ places ∈ handedLines grammar run log, Unbroken log places) ↔
        ∀ line ∈ visibleLines log, Reads line → ¬ Torn line) := by
  refine ⟨recorded_handed run log, by rw [handed_lines, handed_lines], ?_⟩
  rw [handed_lines]
  constructor
  · intro unbroken line mem reads
    have shown := unbroken (placesOf line)
      (List.mem_map_of_mem (List.mem_filter.mpr ⟨mem, reads⟩))
    exact (unbroken_iff mem).mp shown
  · intro whole places mem
    obtain ⟨line, kept, rfl⟩ := List.mem_map.mp mem
    obtain ⟨there, reads⟩ := List.mem_filter.mp kept
    exact (unbroken_iff there).mpr (whole line there reads)

/-- An escape byte takes the line break after `src/`, and the path goes on in the next line. -/
def joinedLog : List UInt8 := utf8 "src/\x1b\nmain.c:1: error: x\n"

theorem problem_lines_joined : ∃ places ∈ handedLines recorder makeRun joinedLog,
    bytesAt joinedLog places = utf8 "src/main.c:1: error: x" ∧ ¬ Unbroken joinedLog places := by
  -- the second line is the empty one behind the last line break
  have handed : handedLines recorder makeRun joinedLog = [[0, 1, 2, 3] ++ List.range' 6 18, []] ∧
      bytesAt joinedLog ([0, 1, 2, 3] ++ List.range' 6 18) = utf8 "src/main.c:1: error: x" ∧
      joinedLog[5]? = some 10 := by
    decide +kernel
  obtain ⟨lines, bytes, newline⟩ := handed
  refine ⟨_, by rw [lines]; exact List.mem_cons_self, bytes, ?_⟩
  intro unbroken
  exact unbroken 0 (by decide) 6 (by decide) 5 (by decide) (by decide) newline

end Idk
