import Idk.Ui.CommitDraft

/-!
# The draft of a commit message

`CommitDraft.At before behind`: the cursor stands between two parts of the text.  Each key is
followed on such a division; `Effect` says what an action may do to the draft.

**Main result:** `commitDraft_edits`: in every sequence of keys and pastes no slice is inside
of a character, the text stays within its limit and free of control characters, and every
action has the effect of its kind.
-/

namespace Idk.Ui

open Idk.Logic

/-! ## The draft by its two parts -/

/-- The cursor stands between two parts of the text. -/
structure CommitDraft.At (draft : CommitDraft) (before behind : List Char) : Prop where
  text : draft.text = before ++ behind
  cursor : draft.cursor = byteLength before

structure WellFormed (draft : CommitDraft) : Prop where
  boundary : ∃ before behind, draft.At before behind
  bounded : byteLength draft.text ≤ 65536
  plain : ∀ character ∈ draft.text, isControl character = true → character = '\n'

/-- What an action is meant to do; a key without a meaning moves by nothing. -/
inductive Kind where
  | insertion (text : List Char)
  | deletion
  | vertical (down : Bool)
  | movement

def KeyEvent.kind (event : KeyEvent) : Kind :=
  match event.code, event.control with
  | .char 'u', true => .deletion
  | .char 'k', true => .deletion
  | .backspace, _ => .deletion
  | .delete, _ => .deletion
  | .up, _ => .vertical false
  | .down, _ => .vertical true
  | .enter, _ => .insertion ['\n']
  | .char character, control =>
    if control || event.alt || event.super then .movement else .insertion [character]
  | _, _ => .movement

def Action.kind : Action → Kind
  | .key event => event.kind
  | .insert text => .insertion text

/-- The cursor stands on this line, at its last position that does not pass the column. -/
structure Reaches (width : Char → Nat) (draft next : CommitDraft) (line column : Nat) : Prop where
  text : next.text = draft.text
  here : ∃ reached, next.position width = some (line, reached) ∧ reached ≤ column ∧
    ∀ (other : CommitDraft) (left : Nat), other.text = draft.text →
      other.position width = some (line, left) → left ≤ column →
        left ≤ reached ∧ other.cursor ≤ next.cursor

/-- The number of the last line. -/
def CommitDraft.lastLine (draft : CommitDraft) : Nat := draft.text.countP newline

/-- What an action of a kind may do. -/
def Effect (width : Char → Nat) (draft : CommitDraft) (result : Result Unit) (next : CommitDraft) :
    Kind → Prop
  | .insertion text =>
    (∃ message, result = .error message ∧ next = draft) ∨
      result = .ok () ∧ ∃ before behind, draft.At before behind ∧
        next.At (before ++ lineBreaks text) behind
  | .deletion => result = .ok () ∧ ∃ before span behind,
      (draft.At (before ++ span) behind ∨ draft.At before (span ++ behind)) ∧ next.At before behind
  | .vertical true => result = .ok () ∧ ∃ line column, draft.position width = some (line, column) ∧
      line ≤ draft.lastLine ∧ (line = draft.lastLine → next = draft) ∧
      (line < draft.lastLine → Reaches width draft next (line + 1) column)
  | .vertical false => result = .ok () ∧ ∃ line column, draft.position width = some (line, column) ∧
      (line = 0 → next = draft) ∧ (0 < line → Reaches width draft next (line - 1) column)
  | .movement => result = .ok () ∧ next.text = draft.text

/-! ## Lines -/

/-- A part of the text that ends where a line starts. -/
def Heads (head : List Char) : Prop := head = [] ∨ ∃ lines, head = lines ++ ['\n']

/-- A part of the text that starts where a line ends. -/
def Tails (tail : List Char) : Prop := tail = [] ∨ ∃ lines, tail = '\n' :: lines

def Free (line : List Char) : Prop := ∀ character ∈ line, newline character = false

section Lines

variable {width : Char → Nat} {draft : CommitDraft} {before behind head line tail : List Char}

theorem eq_of_newline {character : Char} (break_ : newline character = true) : character = '\n' := by
  simpa [newline] using break_

theorem free_of_count (none_ : line.countP newline = 0) : Free line := fun character member => by
  simpa using List.countP_eq_zero.mp none_ character member

theorem Free.count (free : Free line) : line.countP newline = 0 := by
  simpa [Free] using free

theorem Free.left {other : List Char} (free : Free (line ++ other)) : Free line :=
  fun character member => free character (List.mem_append_left _ member)

@[simp] theorem lineWidth_append {other : List Char} :
    lineWidth width (line ++ other) = lineWidth width line + lineWidth width other := by
  simp [lineWidth]

@[simp] theorem lineWidth_cons {character : Char} :
    lineWidth width (character :: line) = width character + lineWidth width line := by
  simp [lineWidth]

theorem newline_size : Char.utf8Size '\n' = 1 := by decide

/-- Every part of the text ends in a line. -/
theorem exists_head (before : List Char) :
    ∃ head line, before = head ++ line ∧ Heads head ∧ Free line := by
  obtain ⟨-, free⟩ | ⟨first, character, line, same, break_, free, -⟩ :=
    findLast_cases newline before
  · exact ⟨[], before, rfl, .inl rfl, free⟩
  · cases eq_of_newline break_
    exact ⟨first ++ ['\n'], line, by simp [same], .inr ⟨first, rfl⟩, free⟩

/-- Every part of the text starts with a line. -/
theorem exists_tail (behind : List Char) :
    ∃ line tail, behind = line ++ tail ∧ Tails tail ∧ Free line := by
  obtain ⟨-, free⟩ | ⟨line, character, last, same, break_, free, -⟩ :=
    findFirst_cases newline behind
  · exact ⟨behind, [], by simp, .inl rfl, free⟩
  · cases eq_of_newline break_
    exact ⟨line, '\n' :: last, same, .inr ⟨last, rfl⟩, free⟩

theorem Heads.count (heads : Heads head) : head.countP newline = 0 ↔ head = [] := by
  obtain rfl | ⟨lines, rfl⟩ := heads
  · simp
  · simp [newline]

theorem Tails.count (tails : Tails tail) : tail.countP newline = 0 ↔ tail = [] := by
  obtain rfl | ⟨lines, rfl⟩ := tails
  · simp
  · simp [newline]

theorem findLast_line (heads : Heads head) (free : Free line) :
    (findLast newline (head ++ line)).elim 0 (· + 1) = byteLength head := by
  obtain rfl | ⟨lines, rfl⟩ := heads
  · rw [List.nil_append, findLast, cutLast_none free]
    rfl
  · rw [List.append_assoc, List.singleton_append, findLast, cutLast_append free (by rfl)]
    simp [newline_size]

theorem findFirst_line (tails : Tails tail) (free : Free line) {whole start : Nat}
    (all : whole = start + byteLength (line ++ tail)) :
    (findFirst newline (line ++ tail)).elim whole (start + ·) = start + byteLength line := by
  obtain rfl | ⟨lines, rfl⟩ := tails
  · rw [List.append_nil] at all ⊢
    rw [findFirst, cutFirst_none free]
    exact all
  · rw [findFirst, cutFirst_append free (by rfl)]
    rfl

theorem lineStart_at (there : draft.At (head ++ line) behind) (heads : Heads head)
    (free : Free line) : draft.lineStart = some (byteLength head) := by
  rw [CommitDraft.lineStart, there.text, there.cursor, upTo_append]
  exact congrArg some (findLast_line heads free)

theorem lineEnd_at (there : draft.At before (line ++ tail)) (tails : Tails tail)
    (free : Free line) : draft.lineEnd = some (byteLength before + byteLength line) := by
  rw [CommitDraft.lineEnd, there.text, there.cursor, onward_append]
  exact congrArg some (findFirst_line tails free byteLength_append)

theorem position_at (there : draft.At (head ++ line) behind) (heads : Heads head)
    (free : Free line) :
    draft.position width = some (head.countP newline, lineWidth width line) := by
  have slice : between draft.text (byteLength head) draft.cursor = some line := by
    rw [there.text, there.cursor, byteLength_append, List.append_assoc]
    exact between_append
  rw [CommitDraft.position, lineStart_at there heads free, there.text, there.cursor, upTo_append]
  simp [← there.text, ← there.cursor, slice, free.count]

/-- A position exists only between two parts of the text. -/
theorem at_of_position {found : Nat × Nat} (position : draft.position width = some found) :
    ∃ before behind, draft.At before behind := by
  simp only [CommitDraft.position, bind, Option.bind_eq_some_iff, upTo, Option.map_eq_some_iff]
    at position
  obtain ⟨before, ⟨parts, split, -⟩, -⟩ := position
  obtain ⟨text, cursor⟩ := splitAt_some split
  exact ⟨parts.1, parts.2, text, cursor⟩

theorem Heads.cut {more : List Char} (heads : Heads (head ++ more)) (free : Free more) :
    more = [] := by
  obtain none_ | ⟨lines, ends⟩ := heads
  · exact (List.append_eq_nil_iff.mp none_).2
  · obtain rfl | ⟨first, last, rfl⟩ := List.eq_nil_or_concat more
    · rfl
    · have same : some last = some '\n' := by simpa using congrArg List.getLast? ends
      have none_ : newline last = false := free last (by simp)
      cases same
      cases none_

theorem Tails.cut {more : List Char} (tails : Tails (more ++ tail)) (free : Free more) :
    more = [] := by
  obtain none_ | ⟨lines, starts⟩ := tails
  · exact (List.append_eq_nil_iff.mp none_).1
  · cases more with
    | nil => rfl
    | cons first rest =>
      have none_ : newline first = false := free first List.mem_cons_self
      cases starts
      cases none_

/-- A position with as many line breaks before it as the line has is on the line. -/
theorem on_line (heads : Heads head) (free : Free line) (tails : Tails tail)
    (same : before ++ behind = head ++ (line ++ tail))
    (count : before.countP newline = head.countP newline) :
    ∃ first last, line = first ++ last ∧ before = head ++ first := by
  obtain ⟨more, rfl, rest⟩ | ⟨more, rfl, rest⟩ := List.append_eq_append_iff.mp same
  · rw [List.countP_append] at count
    have without : Free more := free_of_count (by omega)
    cases heads.cut without
    exact ⟨[], line, rfl, by simp⟩
  · rw [List.countP_append] at count
    have without : Free more := free_of_count (by omega)
    obtain ⟨beyond, rfl, past⟩ | ⟨last, rfl, -⟩ := List.append_eq_append_iff.mp rest
    · rw [past] at tails
      cases tails.cut fun character member => without character (List.mem_append_right _ member)
      exact ⟨line, [], by simp, by simp⟩
    · exact ⟨more, last, rfl, rfl⟩

/-- The loop takes the characters of the line as long as they do not pass the column. -/
theorem reach_spec {column taken cursor : Nat} (line : List Char) (inside : taken ≤ column) :
    ∃ reached left, line = reached ++ left ∧
      reach width column line taken cursor = cursor + byteLength reached ∧
      taken + lineWidth width reached ≤ column ∧
      ∀ character rest, left = character :: rest →
        column < taken + lineWidth width reached + width character := by
  induction line generalizing taken cursor with
  | nil => exact ⟨[], [], rfl, rfl, by simpa [lineWidth] using inside, by simp⟩
  | cons character rest inductionHypothesis =>
    by_cases passes : column < taken + width character
    · refine ⟨[], character :: rest, rfl, ?_, by simpa [lineWidth] using inside, ?_⟩
      · rw [reach, if_pos passes]
        rfl
      · intro other more same
        cases same
        simpa [lineWidth] using passes
    · obtain ⟨reached, left, split, stop, within, next⟩ :=
        @inductionHypothesis (taken + width character) (cursor + character.utf8Size) (by omega)
      refine ⟨character :: reached, left, by rw [split]; rfl, ?_, ?_, fun other more same => ?_⟩
      · rw [reach, if_neg passes, stop, byteLength_cons]
        omega
      · rw [lineWidth_cons]
        omega
      · have behind := next other more same
        rw [lineWidth_cons]
        omega

/-- The positions of a line are its characters' ends. -/
theorem position_on_line {left : Nat} (whole : draft.text = head ++ (line ++ tail))
    (heads : Heads head) (free : Free line) (tails : Tails tail)
    (position : draft.position width = some (head.countP newline, left)) :
    ∃ first last, line = first ++ last ∧ left = lineWidth width first ∧
      draft.cursor = byteLength head + byteLength first := by
  obtain ⟨before, behind, there⟩ := at_of_position position
  have count : before.countP newline = head.countP newline := by
    obtain ⟨start, more, rfl, starts, straight⟩ := exists_head before
    rw [position_at there starts straight] at position
    rw [List.countP_append, straight.count]
    exact congrArg Prod.fst (Option.some.inj position)
  obtain ⟨first, last, rfl, rfl⟩ := on_line heads free tails (there.text.symm.trans whole) count
  rw [position_at there heads free.left] at position
  exact ⟨first, last, rfl, (congrArg Prod.snd (Option.some.inj position)).symm,
    by rw [there.cursor, byteLength_append]⟩

/-- The loop ends at the last position of the line that does not pass the column. -/
theorem reach_reaches {column : Nat} (whole : draft.text = head ++ (line ++ tail))
    (heads : Heads head) (free : Free line) (tails : Tails tail) {next : CommitDraft}
    (moved : next = { draft with cursor := reach width column line 0 (byteLength head) }) :
    (∃ before behind, next.At before behind) ∧
      Reaches width draft next (head.countP newline) column := by
  obtain ⟨reached, left, rfl, stop, within, behind⟩ :=
    @reach_spec width _ 0 (byteLength head) line (Nat.zero_le column)
  have text : next.text = draft.text := by rw [moved]
  have cursor : next.cursor = byteLength head + byteLength reached := by rw [moved]; exact stop
  have there : next.At (head ++ reached) (left ++ tail) :=
    ⟨by rw [text, whole]; simp, by rw [cursor, byteLength_append]⟩
  refine ⟨⟨_, _, there⟩, text, _, position_at there heads free.left, by omega, ?_⟩
  intro other passed same position below
  obtain ⟨first, last, split, rfl, place⟩ :=
    position_on_line (same.trans whole) heads free tails position
  obtain ⟨more, rfl, rest⟩ | ⟨more, rfl, rest⟩ := List.append_eq_append_iff.mp split
  · -- The other position is behind: its next character already passes the column.
    cases more with
    | nil => simp [place, cursor]
    | cons character more =>
      have passes := behind character (more ++ last) rest
      rw [lineWidth_append, lineWidth_cons] at below
      omega
  · rw [place, cursor, lineWidth_append, byteLength_append]
    omega

end Lines

/-! ## The keys -/

section Keys

variable {width : Char → Nat} {draft : CommitDraft} {before behind : List Char}

/-- What a key that does not insert comes to. -/
def Moves (draft : CommitDraft) (next : CommitDraft) : Prop :=
  next.text = draft.text ∧ ∃ before behind, next.At before behind

theorem vertical_down (there : draft.At before behind) :
    ∃ next, draft.vertical width true = some next ∧ Moves draft next ∧
      Effect width draft (.ok ()) next (.vertical true) := by
  obtain ⟨head, line, rfl, heads, free⟩ := exists_head before
  obtain ⟨rest, tail, rfl, tails, straight⟩ := exists_tail behind
  have position := @position_at width _ _ _ _ there heads free
  have stop := lineEnd_at there tails straight
  have last : draft.lastLine = head.countP newline + tail.countP newline := by
    rw [CommitDraft.lastLine, there.text]
    simp [free.count, straight.count]
  simp only [CommitDraft.vertical, position, stop, bind, Option.bind_some, if_true]
  obtain rfl | ⟨more, rfl⟩ := tails
  · have ends : byteLength (head ++ line) + byteLength rest = byteLength draft.text := by
      simp [there.text, Nat.add_assoc]
    rw [if_pos ends]
    refine ⟨draft, rfl, ⟨rfl, _, _, there⟩, rfl, _, _, position, ?_, fun _ => rfl, ?_⟩
    · omega
    · intro before
      simp at last
      omega
  · have goes : byteLength (head ++ line) + byteLength rest ≠ byteLength draft.text := by
      simp [there.text, newline_size]
      omega
    obtain ⟨under, tail, rfl, tails, plain⟩ := exists_tail more
    have top : Heads (head ++ line ++ rest ++ ['\n']) := .inr ⟨_, rfl⟩
    have whole : draft.text = (head ++ line ++ rest ++ ['\n']) ++ (under ++ tail) := by
      rw [there.text]
      simp
    have start : byteLength (head ++ line) + byteLength rest + 1 =
        byteLength (head ++ line ++ rest ++ ['\n']) := by
      simp [newline_size, Nat.add_assoc]
    have count : (head ++ line ++ rest ++ ['\n']).countP newline = head.countP newline + 1 := by
      simp [free.count, straight.count, newline]
    rw [if_neg goes, start, whole, onward_append, Option.bind_some,
      findFirst_line tails plain byteLength_append, between_append, Option.bind_some, ← whole]
    obtain ⟨at_, reaches⟩ := @reach_reaches width _ _ _ _ (lineWidth width line) whole top plain tails _ rfl
    rw [count] at reaches
    refine ⟨_, rfl, ⟨rfl, at_⟩, rfl, _, _, position, ?_, ?_, fun _ => reaches⟩
    · omega
    · intro same
      simp [newline] at last
      omega

theorem vertical_up (there : draft.At before behind) :
    ∃ next, draft.vertical width false = some next ∧ Moves draft next ∧
      Effect width draft (.ok ()) next (.vertical false) := by
  obtain ⟨head, line, rfl, heads, free⟩ := exists_head before
  have position := @position_at width _ _ _ _ there heads free
  have start := lineStart_at there heads free
  simp only [CommitDraft.vertical, position, start, bind, Option.bind_some, Bool.false_eq_true,
    if_false]
  obtain rfl | ⟨above, rfl⟩ := heads
  · exact ⟨draft, rfl, ⟨rfl, _, _, there⟩, rfl, _, _, position, fun _ => rfl, by simp⟩
  · obtain ⟨head, under, rfl, heads, plain⟩ := exists_head above
    have whole : draft.text = head ++ (under ++ ('\n' :: (line ++ behind))) := by
      rw [there.text]
      simp
    have ends : byteLength (head ++ under ++ ['\n']) ≠ 0 := by simp [newline_size]
    have stop : byteLength (head ++ under ++ ['\n']) - 1 = byteLength head + byteLength under := by
      simp [newline_size]
    have front : upTo draft.text (byteLength head + byteLength under) = some (head ++ under) := by
      rw [whole, ← byteLength_append, ← List.append_assoc, upTo_append]
    have slice : between draft.text (byteLength head) (byteLength head + byteLength under) =
        some under := by
      rw [whole, between_append]
    have count : (head ++ under ++ ['\n']).countP newline = head.countP newline + 1 := by
      simp [plain.count, newline]
    rw [if_neg ends, stop, front, Option.bind_some, findLast_line heads plain, slice,
      Option.bind_some]
    obtain ⟨at_, reaches⟩ := @reach_reaches width _ _ _ _ (lineWidth width line) whole heads plain
      (.inr ⟨_, rfl⟩) _ rfl
    refine ⟨_, rfl, ⟨rfl, at_⟩, rfl, _, _, position, ?_, fun _ => ?_⟩
    · intro same
      omega
    · rw [count]
      exact reaches

/-- A drained range is a span at the cursor that goes. -/
theorem cut_spec {first span last : List Char} (text : draft.text = first ++ (span ++ last))
    (side : draft.cursor = byteLength first ∨ draft.cursor = byteLength first + byteLength span) :
    ∃ next, draft.cut (byteLength first) (byteLength first + byteLength span) = some next ∧
      next.At first last ∧ Effect width draft (.ok ()) next .deletion := by
  have there : CommitDraft.At { text := first ++ last, cursor := byteLength first } first last :=
    ⟨rfl, rfl⟩
  refine ⟨_, ?_, there, rfl, first, span, last, ?_, there⟩
  · rw [CommitDraft.cut, text, drain_append]
    rfl
  · obtain before | behind := side
    · exact .inr ⟨text, before⟩
    · exact .inl ⟨by rw [text, List.append_assoc], by rw [behind, byteLength_append]⟩

theorem insert_spec (there : draft.At before behind) (text : List Char) :
    (∃ message, draft.insert text = some (.error message, draft)) ∨
      (∀ character ∈ lineBreaks text, isControl character = true → character = '\n') ∧
      byteLength draft.text + byteLength (lineBreaks text) ≤ 65536 ∧
      ∃ next, draft.insert text = some (.ok (), next) ∧
        next.At (before ++ lineBreaks text) behind := by
  unfold CommitDraft.insert
  dsimp only
  split
  · exact .inl ⟨_, rfl⟩
  · rename_i plain
    split
    · exact .inl ⟨_, rfl⟩
    · rename_i fits
      right
      refine ⟨by simpa using plain, Nat.le_of_not_lt fits, ?_⟩
      refine ⟨{ text := before ++ lineBreaks text ++ behind
                cursor := draft.cursor + byteLength (lineBreaks text) }, ?_, rfl, ?_⟩
      · rw [there.text, there.cursor, splitAt_append]
        rfl
      · simp [there.cursor]

/-- What a key that does not insert leaves. -/
structure Leaves (width : Char → Nat) (draft next : CommitDraft) (kind : Kind) : Prop where
  boundary : ∃ before behind, next.At before behind
  shrinks : next.text.Sublist draft.text
  effect : Effect width draft (.ok ()) next kind

theorem Moves.leaves {next : CommitDraft} (moves : Moves draft next) :
    Leaves width draft next .movement :=
  ⟨moves.2, by rw [moves.1], rfl, moves.1⟩

/-- A key inserts a text, or leaves what its kind says. -/
def Keyed (width : Char → Nat) (draft : CommitDraft) (event : KeyEvent) : Prop :=
  (∃ text, event.kind = .insertion text ∧ draft.key width event = draft.insert text) ∨
    ∃ next, draft.key width event = some (.ok (), next) ∧ Leaves width draft next event.kind

theorem move_keyed {event : KeyEvent} {cursor : Nat} {first last : List Char}
    (kind : event.kind = .movement)
    (moved : draft.key width event = some (.ok (), { draft with cursor }))
    (text : draft.text = first ++ last) (place : cursor = byteLength first) :
    Keyed width draft event :=
  .inr ⟨_, moved, kind ▸ Moves.leaves ⟨rfl, first, last, text, place⟩⟩

theorem cut_keyed {event : KeyEvent} {first span last : List Char}
    (kind : event.kind = .deletion) (text : draft.text = first ++ (span ++ last))
    (side : draft.cursor = byteLength first ∨ draft.cursor = byteLength first + byteLength span)
    (same : draft.key width event =
      (draft.cut (byteLength first) (byteLength first + byteLength span)).bind
        fun next => some (.ok (), next)) :
    Keyed width draft event := by
  obtain ⟨next, done, there, effect⟩ := @cut_spec width _ _ _ _ text side
  refine .inr ⟨next, by rw [same, done]; rfl, ⟨first, last, there⟩, ?_, ?_⟩
  · rw [there.text, text]
    exact (List.sublist_append_right _ _).append_left _
  · rw [kind]
    exact effect

theorem still_keyed {event : KeyEvent} (there : draft.At before behind)
    (kind : event.kind = .movement) (same : draft.key width event = some (.ok (), draft)) :
    Keyed width draft event :=
  .inr ⟨draft, same, kind ▸ Moves.leaves ⟨rfl, before, behind, there⟩⟩

theorem vertical_keyed {event : KeyEvent} {down : Bool} (there : draft.At before behind)
    (kind : event.kind = .vertical down)
    (moved : draft.key width event =
      (draft.vertical width down).map fun next => ((.ok (), next) : Result Unit × CommitDraft)) :
    Keyed width draft event := by
  have spec : ∃ next, draft.vertical width down = some next ∧ Moves draft next ∧
      Effect width draft (.ok ()) next (.vertical down) := by
    cases down with
    | true => exact vertical_down there
    | false => exact vertical_up there
  obtain ⟨next, done, moves, effect⟩ := spec
  refine .inr ⟨next, by rw [moved, done]; rfl, moves.2, by rw [moves.1], ?_⟩
  rw [kind]
  exact effect

/-- Where there is nothing to delete, an empty span goes. -/
theorem nothing_keyed {event : KeyEvent} (there : draft.At before behind)
    (kind : event.kind = .deletion) (same : draft.key width event = some (.ok (), draft)) :
    Keyed width draft event := by
  refine .inr ⟨draft, same, ⟨before, behind, there⟩, .refl _, ?_⟩
  rw [kind]
  exact ⟨rfl, before, [], behind, .inr there, there⟩

theorem char_keyed (there : draft.At before behind) (character : Char)
    {control alt super : Bool} :
    Keyed width draft { code := .char character, control, alt, super } := by
  obtain ⟨head, line, rfl, heads, free⟩ := exists_head before
  obtain ⟨rest, tail, rfl, tails, straight⟩ := exists_tail behind
  have start := lineStart_at there heads free
  have stop := lineEnd_at there tails straight
  cases control with
  | false =>
    cases meant : alt || super with
    | true =>
      have kind : KeyEvent.kind { code := .char character, control := false, alt, super } =
          .movement := by simp [KeyEvent.kind, meant]
      exact still_keyed there kind (by simp [CommitDraft.key, meant])
    | false =>
      exact .inl ⟨[character], by simp [KeyEvent.kind, meant], by simp [CommitDraft.key, meant]⟩
  | true =>
    by_cases first : character = 'a'
    · subst first
      exact move_keyed rfl (by rw [CommitDraft.key, start]; rfl)
        (there.text.trans (List.append_assoc _ _ _)) rfl
    by_cases last : character = 'e'
    · subst last
      refine @move_keyed _ _ _ _ (head ++ line ++ rest) tail rfl
        (by rw [CommitDraft.key, stop]; rfl) ?_ byteLength_append.symm
      rw [there.text, List.append_assoc _ rest]
    by_cases back : character = 'u'
    · subst back
      have cursor : draft.cursor = byteLength head + byteLength line := by
        rw [there.cursor, byteLength_append]
      refine @cut_keyed _ _ _ head line (rest ++ tail) rfl ?_ (.inr cursor) ?_
      · rw [there.text, List.append_assoc]
      · rw [CommitDraft.key, start, cursor]
        rfl
    by_cases ahead : character = 'k'
    · subst ahead
      refine @cut_keyed _ _ _ (head ++ line) rest tail rfl there.text (.inl there.cursor) ?_
      rw [CommitDraft.key, stop, there.cursor]
      rfl
    · exact still_keyed there (by simp [KeyEvent.kind, back, ahead])
        (by simp [CommitDraft.key, first, last, back, ahead])

theorem key_keyed (there : draft.At before behind) (event : KeyEvent) :
    Keyed width draft event := by
  have front : upTo draft.text draft.cursor = some before := by
    rw [there.text, there.cursor, upTo_append]
  have back : onward draft.text draft.cursor = some behind := by
    rw [there.text, there.cursor, onward_append]
  obtain ⟨code, control, alt, super⟩ := event
  cases code with
  | home =>
    obtain ⟨head, line, rfl, heads, free⟩ := exists_head before
    cases control with
    | true => exact move_keyed rfl rfl (List.nil_append _).symm rfl
    | false =>
      exact move_keyed rfl (by rw [CommitDraft.key, lineStart_at there heads free]; rfl)
        (there.text.trans (List.append_assoc _ _ _)) rfl
  | «end» =>
    obtain ⟨line, tail, rfl, tails, free⟩ := exists_tail behind
    cases control with
    | true => exact move_keyed rfl rfl (List.append_nil _).symm rfl
    | false =>
      refine @move_keyed _ _ _ _ (before ++ line) tail rfl
        (by rw [CommitDraft.key, lineEnd_at there tails free]; rfl) ?_ byteLength_append.symm
      rw [there.text, List.append_assoc]
  | char character => exact char_keyed there character
  | left =>
    obtain rfl | ⟨first, last, rfl⟩ := List.eq_nil_or_concat before
    · exact move_keyed rfl (by rw [CommitDraft.key, front]; rfl) (List.nil_append _).symm rfl
    · rw [List.concat_eq_append] at front there
      refine @move_keyed _ _ _ _ first ([last] ++ behind) rfl
        (by rw [CommitDraft.key, front]; rfl) ?_ ?_
      · rw [there.text, List.append_assoc]
      · rw [lastIndex_append]
        rfl
  | right =>
    cases behind with
    | nil => exact still_keyed there rfl (by rw [CommitDraft.key, back]; rfl)
    | cons character behind =>
      refine @move_keyed _ _ _ _ (before ++ [character]) behind rfl
        (by rw [CommitDraft.key, back]; rfl) ?_ ?_
      · rw [there.text, List.append_assoc]
        rfl
      · rw [there.cursor]
        simp
  | up => exact vertical_keyed there rfl rfl
  | down => exact vertical_keyed there rfl rfl
  | enter => exact .inl ⟨_, rfl, rfl⟩
  | backspace =>
    obtain rfl | ⟨first, last, rfl⟩ := List.eq_nil_or_concat before
    · have start : ¬ 0 < draft.cursor := by simp [there.cursor]
      exact nothing_keyed there rfl (by rw [CommitDraft.key, if_neg start])
    · rw [List.concat_eq_append] at front there
      have cursor : draft.cursor = byteLength first + byteLength [last] := by
        rw [there.cursor, byteLength_append]
      have inside : 0 < draft.cursor := by
        have positive := last.utf8Size_pos
        simp [cursor]
        omega
      refine @cut_keyed _ _ _ first [last] behind rfl ?_ (.inr cursor) ?_
      · rw [there.text, List.append_assoc]
      · rw [CommitDraft.key, if_pos inside, front, ← cursor]
        simp only [bind, Option.bind_some, lastIndex_append]
        rfl
  | delete =>
    cases behind with
    | nil => exact nothing_keyed there rfl (by rw [CommitDraft.key, back]; rfl)
    | cons character behind =>
      refine @cut_keyed _ _ _ before [character] behind rfl there.text (.inl there.cursor) ?_
      rw [CommitDraft.key, back, there.cursor]
      rfl
  | other => exact still_keyed there rfl rfl

end Keys

/-! ## Runs -/

theorem byteLength_sublist {part whole : List Char} (sub : part.Sublist whole) :
    byteLength part ≤ byteLength whole := by
  induction sub with
  | slnil => exact Nat.le_refl _
  | cons character sub inductionHypothesis =>
    rw [byteLength_cons]
    omega
  | cons_cons character sub inductionHypothesis =>
    rw [byteLength_cons, byteLength_cons]
    omega

/-- What an action does from a draft that is well formed. -/
theorem act_spec {width : Char → Nat} {draft : CommitDraft} (formed : WellFormed draft)
    (action : Action) : ∃ result next, draft.act width action = some (result, next) ∧
      WellFormed next ∧ Effect width draft result next action.kind := by
  obtain ⟨before, behind, there⟩ := formed.boundary
  have inserts (text : List Char) : ∃ result next, draft.insert text = some (result, next) ∧
      WellFormed next ∧ Effect width draft result next (.insertion text) := by
    obtain ⟨message, refused⟩ | ⟨plain, fits, next, done, place⟩ := insert_spec there text
    · exact ⟨_, _, refused, formed, .inl ⟨message, rfl, rfl⟩⟩
    · refine ⟨_, _, done, ⟨⟨_, _, place⟩, ?_, ?_⟩, .inr ⟨rfl, before, behind, there, place⟩⟩
      · rw [there.text, byteLength_append] at fits
        rw [place.text, byteLength_append, byteLength_append]
        omega
      · intro character member control
        rw [place.text, List.mem_append, List.mem_append] at member
        obtain (old | new) | old := member
        · exact formed.plain character (by simp [there.text, old]) control
        · exact plain character new control
        · exact formed.plain character (by simp [there.text, old]) control
  cases action with
  | insert text => exact inserts text
  | key event =>
    obtain ⟨text, kind, same⟩ | ⟨next, done, leaves⟩ := @key_keyed width _ _ _ there event
    · obtain ⟨result, next, done, further⟩ := inserts text
      rw [← kind] at further
      exact ⟨result, next, same.trans done, further⟩
    · have shrinks := leaves.shrinks
      have formed : WellFormed next := {
        boundary := leaves.boundary
        bounded := Nat.le_trans (byteLength_sublist shrinks) formed.bounded
        plain := fun character member => formed.plain character (shrinks.subset member) }
      exact ⟨_, next, done, formed, leaves.effect⟩

theorem edit_formed {width : Char → Nat} {draft : CommitDraft} (formed : WellFormed draft)
    (actions : List Action) :
    ∃ next, draft.edit width actions = some next ∧ WellFormed next := by
  induction actions generalizing draft with
  | nil => exact ⟨draft, rfl, formed⟩
  | cons action rest inductionHypothesis =>
    obtain ⟨result, middle, done, well, -⟩ := @act_spec width _ formed action
    obtain ⟨next, edited, last⟩ := inductionHypothesis well
    exact ⟨next, by rw [CommitDraft.edit, done]; exact edited, last⟩

theorem default_formed : WellFormed .default where
  boundary := ⟨[], [], rfl, rfl⟩
  bounded := Nat.zero_le _
  plain := fun character member => by cases member

/-- Whatever is typed and pasted, the draft stays well formed and every action does what its
    kind says. -/
theorem commitDraft_edits (width : Char → Nat) (actions : List Action) :
    ∃ draft, CommitDraft.default.edit width actions = some draft ∧ WellFormed draft ∧
      ∀ action, ∃ result next, draft.act width action = some (result, next) ∧
        Effect width draft result next action.kind := by
  obtain ⟨draft, edited, formed⟩ := edit_formed default_formed actions
  refine ⟨draft, edited, formed, fun action => ?_⟩
  obtain ⟨result, next, done, -, effect⟩ := @act_spec width _ formed action
  exact ⟨result, next, done, effect⟩

end Idk.Ui
