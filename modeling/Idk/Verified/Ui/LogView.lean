import Idk.Logic.Json
import Idk.Logic.Windows
import Idk.Ui.LogView

/-!
# The log view and how its log was cut into chunks

What `push` keeps is a window on the bytes that `Controls` lets through.  The window is the same
for all chunks, unless one chunk ends in a run of continuing bytes that fills all of it: the
next chunk then begins inside of that run, and the bytes of it are shown.
-/

namespace Idk

/-! ## The text -/

theorem safeChars_allowed {room : Nat} {chars : List Char} {char : Char}
    (member : char ∈ safeChars room chars) : forbiddenCharacter char = false := by
  induction chars generalizing room with
  | nil => cases member
  | cons other chars inductionHypothesis =>
    simp only [safeChars] at member
    split at member
    · exact inductionHypothesis member
    · rename_i allowed
      split at member
      · obtain rfl | later := List.mem_cons.mp member
        · simpa using allowed
        · exact inductionHypothesis later
      · cases member

theorem safeChars_fits (room : Nat) (chars : List Char) :
    ((safeChars room chars).map Char.utf8Size).sum ≤ room := by
  induction chars generalizing room with
  | nil => exact Nat.zero_le _
  | cons char chars inductionHypothesis =>
    simp only [safeChars]
    split
    · exact inductionHypothesis room
    · split
      · have rest := inductionHypothesis (room - char.utf8Size)
        simp only [List.map_cons, List.sum_cons]
        omega
      · exact Nat.zero_le _

/-- Only the characters that may be shown matter. -/
def allowed (chars : List Char) : List Char := chars.filter fun char => !forbiddenCharacter char

theorem safeChars_filter (room : Nat) (chars : List Char) :
    safeChars room (allowed chars) = safeChars room chars := by
  induction chars generalizing room with
  | nil => rfl
  | cons char chars inductionHypothesis =>
    cases forbidden : forbiddenCharacter char with
    | true =>
      have skips : allowed (char :: chars) = allowed chars := by simp [allowed, forbidden]
      rw [skips, inductionHypothesis, safeChars, forbidden, if_pos rfl]
    | false =>
      have stays : allowed (char :: chars) = char :: allowed chars := by simp [allowed, forbidden]
      simp only [stays, safeChars, forbidden, inductionHypothesis]

namespace Ui

open Logic Logic.Utf8

/-- The characters are replacement characters as long as there is room for more than one byte. -/
def Blank (count : Nat) (chars : List Char) : Prop :=
  ∃ rest, allowed chars = List.replicate count replacement ++ rest ∧
    ∀ char ∈ rest.head?, char.utf8Size ≠ 1

theorem replacement_size : replacement.utf8Size = 3 := by decide

theorem replacement_allowed : forbiddenCharacter replacement = false := by decide

theorem safeChars_full (room : Nat) (full : room < 3) (strays : Nat) (chars : List Char) :
    safeChars room (List.replicate (strays + 1) replacement ++ chars) = [] := by
  rw [List.replicate_succ, List.cons_append, safeChars, replacement_allowed,
    if_neg Bool.false_ne_true, replacement_size, if_neg (by omega)]

/-- More replacement characters at the begin show only where they are not shown anyway. -/
theorem safeChars_strays (count strays : Nat) (chars : List Char)
    (plain : ∀ char ∈ chars, forbiddenCharacter char = false) :
    safeChars (3 * count + 1) (List.replicate (strays + 1) replacement ++ chars) =
        safeChars (3 * count + 1) chars ↔
      ∃ rest, chars = List.replicate count replacement ++ rest ∧
        ∀ char ∈ rest.head?, char.utf8Size ≠ 1 := by
  induction count generalizing chars with
  | zero =>
    rw [safeChars_full _ (by omega)]
    cases chars with
    | nil => exact ⟨fun _ => ⟨[], rfl, nofun⟩, fun _ => rfl⟩
    | cons char chars =>
      have shown := plain char List.mem_cons_self
      have some_ := char.utf8Size_pos
      simp only [safeChars, shown, Bool.false_eq_true, if_false]
      by_cases one : char.utf8Size = 1
      · simp [one]
      · have large : ¬ char.utf8Size ≤ 1 := by omega
        simp [one, large]
  | succ count inductionHypothesis =>
    have room : 3 * (count + 1) + 1 - 3 = 3 * count + 1 := by omega
    have shows (rest : List Char) : safeChars (3 * (count + 1) + 1) (replacement :: rest) =
        replacement :: safeChars (3 * count + 1) rest := by
      rw [safeChars, replacement_allowed, if_neg Bool.false_ne_true, replacement_size,
        if_pos (by omega), room]
    rw [List.replicate_succ, List.cons_append, shows]
    cases chars with
    | nil => simp [safeChars, List.replicate_succ]
    | cons char chars =>
      by_cases same : char = replacement
      · subst same
        have others := inductionHypothesis chars fun other member =>
          plain other (List.mem_cons_of_mem _ member)
        have moved : List.replicate strays replacement ++ replacement :: chars =
            List.replicate (strays + 1) replacement ++ chars := by
          rw [List.replicate_succ', List.append_assoc]
          rfl
        rw [moved, shows]
        simpa [List.replicate_succ] using others
      · have shown := plain char List.mem_cons_self
        have other : ¬ replacement = char := fun twin => same twin.symm
        simp only [safeChars, shown, Bool.false_eq_true, if_false, List.replicate_succ,
          List.cons_append, List.cons.injEq, same, false_and, exists_false, iff_false]
        split
        · simp [other]
        · nofun

/-! ## The end of the text -/

/-- Bytes by the place from which `text` looks at them. -/
structure Ends (before : List UInt8) (byte : UInt8) (behind : List UInt8) : Prop where
  all : ∀ other ∈ behind, continues other = true
  stops : before = [] ∨ continues byte = false ∨ behind.length = 3
  short : behind.length ≤ 3

theorem exists_ends (byte : UInt8) (bytes : List UInt8) :
    ∃ before first behind, byte :: bytes = before ++ first :: behind ∧
      Ends before first behind := by
  induction bytes generalizing byte with
  | nil => exact ⟨[], byte, [], rfl, nofun, .inl rfl, Nat.zero_le _⟩
  | cons next bytes inductionHypothesis =>
    obtain ⟨before, first, behind, same, ends⟩ := inductionHypothesis next
    by_cases last : before = [] ∧ continues first = true ∧ behind.length < 3
    · obtain ⟨rfl, stray, short⟩ := last
      refine ⟨[], byte, first :: behind, by rw [same]; rfl, ?_, .inl rfl, short⟩
      intro other member
      obtain rfl | later := List.mem_cons.mp member
      · exact stray
      · exact ends.all other later
    · refine ⟨byte :: before, first, behind, by rw [same]; rfl, ends.all, .inr ?_, ends.short⟩
      obtain none_ | others := ends.stops
      · cases stray : continues first with
        | false => exact .inl rfl
        | true =>
          have short := ends.short
          exact .inr (by_contra fun less => last ⟨none_, stray, by omega⟩)
      · exact others

theorem tailStart_ends {before behind : List UInt8} {byte : UInt8}
    (ends : Ends before byte behind) {count : Nat} (inside : count ≤ behind.length) :
    tailStart (before ++ byte :: behind) (before.length + count) = before.length := by
  induction count with
  | zero =>
    cases place : before.length with
    | zero => rfl
    | succ start =>
      have there : (before ++ byte :: behind)[start + 1]? = some byte := by
        rw [← place, List.getElem?_append_right le_rfl, Nat.sub_self]
        rfl
      have length : (before ++ byte :: behind).length = start + 1 + (behind.length + 1) := by
        simp [place]
      rw [Nat.add_zero, tailStart, there, length, if_neg]
      rintro ⟨stray, near⟩
      obtain none_ | plain | far := ends.stops
      · simp [none_] at place
      · simp [plain] at stray
      · omega
  | succ count inductionHypothesis =>
    have there : (before ++ byte :: behind)[before.length + count + 1]? = behind[count]? := by
      rw [List.getElem?_append_right (by omega)]
      have place : before.length + count + 1 - before.length = count + 1 := by omega
      rw [place, List.getElem?_cons_succ]
    have stray := ends.all behind[count] (List.getElem_mem _)
    have short := ends.short
    rw [← Nat.add_assoc, tailStart, there, List.getElem?_eq_getElem inside, if_pos]
    · exact inductionHypothesis (by omega)
    · refine ⟨stray, ?_⟩
      simp only [List.length_append, List.length_cons]
      omega

theorem textEnd_ends {before behind : List UInt8} {byte : UInt8}
    (ends : Ends before byte behind) :
    textEnd (before ++ byte :: behind) =
      match Utf8.cutAt (byte :: behind) with
      | some validUpTo => before.length + validUpTo
      | none => (before ++ byte :: behind).length := by
  have last : (before ++ byte :: behind).length - 1 = before.length + behind.length := by
    simp
  cases cut : Utf8.cutAt (byte :: behind) with
  | none => simp only [textEnd, last, tailStart_ends ends le_rfl, List.drop_left, cut]
  | some validUpTo => simp only [textEnd, last, tailStart_ends ends le_rfl, List.drop_left, cut]

/-- The bytes that `text` shows. -/
def visible (bytes : List UInt8) : List UInt8 := bytes.take (textEnd bytes)

/-- What `text` leaves out at the end does not depend on what stands before a first byte. -/
theorem visible_strays {strays rest : List UInt8} (all : ∀ byte ∈ strays, continues byte = true)
    (fresh : Fresh rest) : visible (strays ++ rest) = strays ++ visible rest := by
  cases rest with
  | nil =>
    cases strays with
    | nil => rfl
    | cons byte strays =>
      obtain ⟨before, first, behind, same, ends⟩ := exists_ends byte strays
      have stray : continues first = true := all first (by rw [same]; simp)
      have none_ : visible [] = [] := rfl
      rw [none_, List.append_nil, visible, same, textEnd_ends ends, cutAt_stray stray,
        List.take_length]
  | cons byte rest =>
    obtain ⟨before, first, behind, same, ends⟩ := exists_ends byte rest
    have wider : Ends (strays ++ before) first behind := by
      refine ⟨ends.all, .inr ?_, ends.short⟩
      obtain rfl | others := ends.stops
      · obtain ⟨rfl, rfl⟩ := List.cons.inj same
        exact .inl (fresh byte rfl)
      · exact others
    have whole : strays ++ (byte :: rest) = (strays ++ before) ++ first :: behind := by
      rw [same, List.append_assoc]
    rw [visible, visible, whole, same, textEnd_ends wider, textEnd_ends ends]
    cases Utf8.cutAt (first :: behind) with
    | none => simp only [List.take_length, List.append_assoc]
    | some place =>
      simp only [List.length_append, List.append_assoc, Nat.add_assoc,
        List.take_length_add_append]

/-- A character that is not complete is left out. -/
theorem visible_cut {before missing left : List UInt8} {char : Char} (some_ : missing ≠ [])
    (more : left ≠ []) (encoded : String.utf8EncodeChar char = missing ++ left) :
    visible (before ++ missing) = before := by
  cases missing with
  | nil => exact absurd rfl some_
  | cons byte behind =>
    have first := encoded_continues encoded
    have size : behind.length + left.length + 1 = char.utf8Size := by
      rw [← String.length_utf8EncodeChar, encoded]
      simp [Nat.add_assoc, Nat.add_comm]
    have four := char.utf8Size_le_four
    have ends : Ends before byte behind :=
      ⟨fun other member => first.2 other (List.mem_append_left _ member), .inr (.inl first.1),
        by omega⟩
    rw [visible, textEnd_ends ends, cutAt_cut more encoded]
    exact List.take_left

/-- A complete character is shown. -/
theorem visible_encoded (before : List UInt8) (char : Char) :
    visible (before ++ String.utf8EncodeChar char) = before ++ String.utf8EncodeChar char := by
  have whole := cutAt_encoded char
  have four := char.utf8Size_le_four
  have size := String.length_utf8EncodeChar char
  cases encoded : String.utf8EncodeChar char with
  | nil =>
    have some_ := char.utf8Size_pos
    simp [encoded] at size
    omega
  | cons byte behind =>
    rw [encoded] at whole size
    rw [List.length_cons] at size
    have first := encoded_continues encoded
    have ends : Ends before byte behind := ⟨first.2, .inr (.inl first.1), by omega⟩
    rw [visible, textEnd_ends ends, whole, List.take_length]

/-! ## Chunks -/

theorem strip_append (controls : Controls) (first second : List UInt8) :
    controls.strip (first ++ second) =
      (((controls.strip first).1.strip second).1,
        (controls.strip first).2 ++ ((controls.strip first).1.strip second).2) := by
  induction first generalizing controls with
  | nil => rfl
  | cons byte first inductionHypothesis =>
    simp only [List.cons_append, Controls.strip, inductionHypothesis, List.append_assoc]

/-- Each cut of the bytes that are let through is one of the log. -/
theorem strip_cut (controls : Controls) {log before behind : List UInt8}
    (same : (controls.strip log).2 = before ++ behind) :
    ∃ first second, log = first ++ second ∧ (controls.strip first).2 = before ∧
      ((controls.strip first).1.strip second).2 = behind := by
  induction log generalizing controls before with
  | nil =>
    obtain ⟨rfl, rfl⟩ := List.append_eq_nil_iff.mp same.symm
    exact ⟨[], [], rfl, rfl, rfl⟩
  | cons byte log inductionHypothesis =>
    cases before with
    | nil => exact ⟨[], byte :: log, rfl, rfl, same⟩
    | cons head before =>
      cases kept : (controls.consume byte).2 with
      | none =>
        obtain ⟨first, second, rfl, here, there⟩ :=
          @inductionHypothesis (controls.consume byte).1 (head :: before)
            (by simpa [Controls.strip, kept] using same)
        exact ⟨byte :: first, second, rfl, by simp [Controls.strip, kept, here], there⟩
      | some other =>
        simp only [Controls.strip, kept, Option.toList_some, List.cons_append, List.nil_append,
          List.cons.injEq] at same
        obtain ⟨rfl, same⟩ := same
        obtain ⟨first, second, rfl, here, there⟩ := inductionHypothesis _ same
        exact ⟨byte :: first, second, rfl, by simp [Controls.strip, kept, here], there⟩

/-- The bytes of a log that are let through. -/
def plainBytes (log : List UInt8) : List UInt8 := (Controls.strip ⟨.plain, false⟩ log).2

/-- The views of a log, by all the ways in which it can be read in chunks. -/
inductive Reads (runId : String) (generation offset : Nat) : List UInt8 → LogView → Prop
  | new : Reads runId generation offset [] (.new runId generation offset)
  | push {log : List UInt8} {view next : LogView} {chunk : LogChunk} :
      Reads runId generation offset log view → view.push chunk = (.ok (), next) →
      Reads runId generation offset (log ++ chunk.data) next

/-- The chunk is the next one of what the view shows. -/
structure Continues (view : LogView) (chunk : LogChunk) : Prop where
  run : chunk.descriptor.runId = view.runId
  generation : chunk.descriptor.generation = view.generation
  offset : chunk.offset = view.next
  next : chunk.nextOffset = chunk.offset + chunk.data.length

section Views

variable {runId : String} {generation offset : Nat} {log : List UInt8} {view next : LogView}
  {chunk : LogChunk}

theorem accepts_iff : view.accepts chunk = .ok () ↔ Continues view chunk := by
  constructor
  · intro accepted
    simp only [LogView.accepts] at accepted
    obtain ⟨_, descriptor, accepted⟩ := bind_eq_ok.mp accepted
    obtain ⟨_, place, ends⟩ := bind_eq_ok.mp accepted
    have same := ensure_eq_ok.mp descriptor
    simp only [Bool.and_eq_true, beq_iff_eq] at same
    exact ⟨same.1.symm, same.2.symm, (beq_iff_eq.mp (ensure_eq_ok.mp place)).symm,
      beq_iff_eq.mp (ensure_eq_ok.mp ends)⟩
  · intro continues
    simp only [LogView.accepts, continues.run, continues.generation, continues.offset,
      continues.next, beq_self_eq_true, Bool.and_self]
    rfl

theorem push_accepted (continues : Continues view chunk) :
    view.push chunk = (.ok (), view.extended chunk) := by
  rw [LogView.push, accepts_iff.mpr continues]

theorem push_rejected (other : ¬ Continues view chunk) :
    ∃ error, view.push chunk = (.error error, view) := by
  cases rejected : view.accepts chunk with
  | ok value => exact absurd (accepts_iff.mp rejected) other
  | error error => exact ⟨error, by rw [LogView.push, rejected]⟩

theorem push_ok (pushed : view.push chunk = (.ok (), next)) :
    Continues view chunk ∧ next = view.extended chunk := by
  by_cases continues : Continues view chunk
  · rw [push_accepted continues] at pushed
    exact ⟨continues, (Prod.mk.inj pushed).2.symm⟩
  · obtain ⟨error, rejected⟩ := push_rejected continues
    rw [rejected] at pushed
    cases (Prod.mk.inj pushed).1

theorem drained_eq (bytes : List UInt8) : drained bytes = window continues displayLimit bytes :=
  rfl

theorem Reads.controls (reads : Reads runId generation offset log view) :
    view.controls = (Controls.strip ⟨.plain, false⟩ log).1 := by
  induction reads with
  | new => rfl
  | push reads pushed inductionHypothesis =>
    obtain ⟨-, rfl⟩ := push_ok pushed
    rw [strip_append, ← inductionHypothesis]
    rfl

/-- What a view keeps is a window of the log. -/
theorem Reads.windowed (reads : Reads runId generation offset log view) :
    Windowed continues displayLimit (plainBytes log) view.bytes := by
  induction reads with
  | new => exact .inl (window_short (Nat.zero_le _)).symm
  | @push log view next chunk reads pushed inductionHypothesis =>
    obtain ⟨-, rfl⟩ := push_ok pushed
    have grown := inductionHypothesis.grows (view.controls.strip chunk.data).2
    rw [reads.controls] at grown
    rw [plainBytes, strip_append]
    simpa [LogView.extended, drained_eq, reads.controls, plainBytes] using grown

/-- Each log can be read further by any bytes. -/
theorem Reads.more (reads : Reads runId generation offset log view) (bytes : List UInt8) :
    ∃ next, Reads runId generation offset (log ++ bytes) next ∧
      next.bytes = drained (view.bytes ++ (view.controls.strip bytes).2) := by
  let chunk : LogChunk := {
    descriptor := {
      runId := view.runId, generation := view.generation, state := .recording, bytes := 0
      observedBytes := 0, limitBytes := 0, mergedPty := true, fileIdentity := none }
    offset := view.next, nextOffset := view.next + bytes.length, data := bytes, eof := false }
  have continues : Continues view chunk := ⟨rfl, rfl, rfl, rfl⟩
  exact ⟨view.extended chunk, .push reads (push_accepted continues), rfl⟩

end Views

/-! ## All ways to cut a log -/

/-- What the view of a log has to be, whatever its chunks are. -/
structure Faithful (log : List UInt8) : Prop where
  agrees : ∀ {runId generation offset otherId otherGeneration otherOffset first second},
    Reads runId generation offset log first →
    Reads otherId otherGeneration otherOffset log second → first.text = second.text
  bounded : ∀ {runId generation offset view}, Reads runId generation offset log view →
    view.text.utf8ByteSize ≤ displayLimit
  plain : ∀ {runId generation offset view}, Reads runId generation offset log view →
    ∀ char ∈ view.text.toList, forbiddenCharacter char = false
  /-- A character that is not complete is left out until the bytes that are left arrive. -/
  withholds : ∀ {runId generation offset view}, Reads runId generation offset log view →
    ∀ {before missing left char}, plainBytes log = before ++ missing → missing ≠ [] →
      left ≠ [] → String.utf8EncodeChar char = missing ++ left →
      (∃ stays, stays <:+ before ∧ view.bytes = stays ++ missing ∧
        view.text = safeUtf8Lossy stays displayLimit) ∧
      ∀ {chunk next}, view.push chunk = (.ok (), next) →
        (view.controls.strip chunk.data).2 = left →
        ∃ stays, stays <:+ before ∧ next.bytes = stays ++ String.utf8EncodeChar char ∧
          next.text = String.ofList (safeChars displayLimit (lossy stays ++ [char]))
  accepts : ∀ {runId generation offset view}, Reads runId generation offset log view →
    ∀ {chunk}, Continues view chunk → ∃ next, view.push chunk = (.ok (), next)
  rejects : ∀ {runId generation offset view}, Reads runId generation offset log view →
    ∀ {chunk}, ¬ Continues view chunk → ∃ error, view.push chunk = (.error error, view)

/-- No cut of the log strands the view, or what it would show more is not seen: the text is
    filled with replacement characters. -/
def Steady (log : List UInt8) : Prop :=
  (∃ kept, Stranded continues displayLimit (plainBytes log) kept) →
    Blank 87381 (lossy (visible (drained (plainBytes log))))

theorem text_eq (view : LogView) : view.text = safeUtf8Lossy (visible view.bytes) displayLimit :=
  rfl

theorem drained_fresh (bytes : List UInt8) (long : displayLimit < bytes.length) :
    Fresh (drained bytes) := by
  intro byte head
  rw [drained, if_pos long] at head
  exact head_dropWhile _ byte head

/-- Bytes that continue nothing, before the bytes that are shown. -/
theorem shows_strays {strays rest : List UInt8} (some_ : strays ≠ [])
    (all : ∀ byte ∈ strays, continues byte = true) (fresh : Fresh rest) :
    safeUtf8Lossy (visible (strays ++ rest)) displayLimit =
        safeUtf8Lossy (visible rest) displayLimit ↔ Blank 87381 (lossy (visible rest)) := by
  obtain ⟨count, length⟩ := Nat.exists_eq_succ_of_ne_zero (List.length_pos_iff.mpr some_).ne'
  have marks : allowed (List.replicate strays.length replacement ++ lossy (visible rest)) =
      List.replicate (count + 1) replacement ++ allowed (lossy (visible rest)) := by
    rw [allowed, List.filter_append, List.filter_eq_self.mpr, length]
    · rfl
    · intro char member
      rw [(List.mem_replicate.mp member).2]
      decide
  have plain : ∀ char ∈ allowed (lossy (visible rest)), forbiddenCharacter char = false := by
    intro char member
    simpa [allowed] using (List.mem_filter.mp member).2
  have strayed := safeChars_strays 87381 count (allowed (lossy (visible rest))) plain
  rw [← marks, safeChars_filter, safeChars_filter] at strayed
  rw [visible_strays all fresh, safeUtf8Lossy, safeUtf8Lossy, lossy_strays all,
    String.ofList_inj]
  exact strayed

section Cuts

variable {log kept : List UInt8}

/-- A stranded view shows what the whole log shows just where that is not seen. -/
theorem stranded_shows (stranded : Stranded continues displayLimit (plainBytes log) kept) :
    safeUtf8Lossy (visible kept) displayLimit =
        safeUtf8Lossy (visible (drained (plainBytes log))) displayLimit ↔
      Blank 87381 (lossy (visible (drained (plainBytes log)))) := by
  obtain ⟨gone, run, same, strands⟩ := stranded
  obtain ⟨strays, some_, all, begins⟩ := strands.begins
  have long : displayLimit < (plainBytes log).length := by
    have before := List.length_pos_iff.mpr strands.before
    have length := strands.length
    rw [same]
    simp only [List.length_append]
    omega
  rw [← same, ← drained_eq] at begins
  rw [begins]
  exact shows_strays some_ all (drained_fresh _ long)

/-- A log is read whole by one chunk. -/
theorem exists_whole (log : List UInt8) :
    ∃ view, Reads "" 0 0 log view ∧ view.bytes = drained (plainBytes log) := by
  obtain ⟨view, reads, bytes⟩ := (@Reads.new "" 0 0).more log
  exact ⟨view, reads, bytes⟩

/-- What strands a view is met by two chunks. -/
theorem exists_stranded (stranded : Stranded continues displayLimit (plainBytes log) kept) :
    ∃ view, Reads "" 0 0 log view ∧ view.bytes = kept := by
  obtain ⟨gone, run, same, strands⟩ := stranded
  obtain ⟨first, second, rfl, here, there⟩ :=
    strip_cut ⟨.plain, false⟩ (same.trans (List.append_assoc _ _ _).symm)
  obtain ⟨middle, begins, begun⟩ := (@Reads.new "" 0 0).more first
  obtain ⟨view, reads, bytes⟩ := begins.more second
  have controls := begins.controls
  refine ⟨view, reads, ?_⟩
  rw [List.nil_append] at controls
  rw [bytes, begun, controls, there]
  have reached := strands.reached
  rw [← here] at reached
  exact reached

theorem agrees_iff : (∀ {runId generation offset otherId otherGeneration otherOffset first second},
    Reads runId generation offset log first →
    Reads otherId otherGeneration otherOffset log second → first.text = second.text) ↔
    Steady log := by
  constructor
  · rintro agrees ⟨kept, stranded⟩
    obtain ⟨whole, reads, bytes⟩ := exists_whole log
    obtain ⟨view, others, strays⟩ := exists_stranded stranded
    have same := agrees others reads
    rw [text_eq, text_eq, bytes, strays] at same
    exact (stranded_shows stranded).mp same
  · intro steady
    have whole {runId : String} {generation offset : Nat} {view : LogView}
        (reads : Reads runId generation offset log view) :
        view.text = safeUtf8Lossy (visible (drained (plainBytes log))) displayLimit := by
      rw [text_eq]
      obtain same | stranded := reads.windowed
      · rw [same, drained_eq]
      · exact (stranded_shows stranded).mpr (steady ⟨_, stranded⟩)
    intro _ _ _ _ _ _ first second reads others
    rw [whole reads, whole others]

end Cuts

/-- The text that `text` makes is bounded and has no character that may not be shown. -/
theorem text_bounded (view : LogView) : view.text.utf8ByteSize ≤ displayLimit := by
  have fits := safeChars_fits displayLimit (lossy (visible view.bytes))
  rw [text_eq, safeUtf8Lossy, Logic.Json.utf8ByteSize_ofList]
  exact fits

theorem text_plain (view : LogView) :
    ∀ char ∈ view.text.toList, forbiddenCharacter char = false := by
  intro char member
  rw [text_eq, safeUtf8Lossy, String.toList_ofList] at member
  exact safeChars_allowed member

/-- The last bytes of a log stay in its view as a character begins with them. -/
theorem Reads.keeps {runId : String} {generation offset : Nat} {log before missing left : List UInt8}
    {view : LogView} {char : Char} (reads : Reads runId generation offset log view)
    (same : plainBytes log = before ++ missing) (some_ : missing ≠ [])
    (encoded : String.utf8EncodeChar char = missing ++ left) :
    ∃ stays, stays <:+ before ∧ view.bytes = stays ++ missing := by
  have windowed := reads.windowed
  rw [same] at windowed
  refine windowed.keeps some_ ?_ ?_
  · cases missing with
    | nil => exact absurd rfl some_
    | cons byte missing =>
      rintro _ ⟨⟩
      exact (encoded_continues encoded).1
  · have size := String.length_utf8EncodeChar char
    have four := char.utf8Size_le_four
    rw [encoded, List.length_append] at size
    rw [displayLimit]
    omega

/-- The view of a log is the same for all chunks just where none of them strands it. -/
theorem faithful_iff (log : List UInt8) : Faithful log ↔ Steady log := by
  constructor
  · exact fun faithful => agrees_iff.mp faithful.agrees
  intro steady
  refine ⟨agrees_iff.mpr steady, fun _ => text_bounded _, fun _ => text_plain _, ?_,
    fun _ _ continues => ⟨_, push_accepted continues⟩, fun _ _ other => push_rejected other⟩
  intro runId generation offset view reads before missing left char same some_ more encoded
  constructor
  · obtain ⟨stays, suffix, bytes⟩ := reads.keeps same some_ encoded
    refine ⟨stays, suffix, bytes, ?_⟩
    rw [text_eq, bytes, visible_cut some_ more encoded]
  · intro chunk next pushed arrived
    have whole : plainBytes (log ++ chunk.data) = before ++ String.utf8EncodeChar char := by
      rw [plainBytes, strip_append, ← reads.controls, arrived, encoded, ← List.append_assoc]
      exact congrArg (· ++ left) same
    have filled : String.utf8EncodeChar char ≠ [] := by
      rw [encoded]
      exact List.append_ne_nil_of_left_ne_nil some_ _
    obtain ⟨stays, suffix, bytes⟩ := (Reads.push reads pushed).keeps whole filled
      (List.append_nil _).symm
    refine ⟨stays, suffix, bytes, ?_⟩
    have fresh : Fresh (String.utf8EncodeChar char) := by
      intro byte head
      cases begins : String.utf8EncodeChar char with
      | nil => exact absurd begins filled
      | cons first rest =>
        rw [begins] at head
        cases head
        exact (encoded_continues begins).1
    have decoded := lossy_encoded char []
    rw [List.append_nil] at decoded
    rw [text_eq, bytes, visible_encoded, safeUtf8Lossy, lossy_append fresh, decoded]
    rfl

theorem strip_continues {bytes : List UInt8} (all : ∀ byte ∈ bytes, continues byte = true)
    (removed : Bool) : Controls.strip ⟨.plain, removed⟩ bytes = (⟨.plain, removed⟩, bytes) := by
  induction bytes with
  | nil => rfl
  | cons byte bytes inductionHypothesis =>
    have range := continues_iff.mp (all byte List.mem_cons_self)
    have kept : Controls.consume ⟨.plain, removed⟩ byte = (⟨.plain, removed⟩, some byte) := by
      have other {value : UInt8} (small : value.toNat < 0x80) : ¬ byte = value := by
        rintro rfl
        omega
      have high : (0x80 : UInt8) ≤ byte := UInt8.le_iff_toNat_le.mpr range.1
      simp only [Controls.consume]
      rw [if_neg (other (by decide)), if_neg (other (by decide)),
        if_pos (.inr (.inr (.inr high)))]
    have others := inductionHypothesis fun other member => all other (List.mem_cons_of_mem _ member)
    simp [Controls.strip, kept, others]

/-- A log of continuing bytes alone that is one byte longer than what strands the view. -/
theorem continuing_not_faithful : ¬ Faithful (List.replicate 262146 0x80) := by
  intro faithful
  have all {count : Nat} : ∀ byte ∈ List.replicate count (0x80 : UInt8),
      continues byte = true := by
    intro byte member
    rw [(List.mem_replicate.mp member).2]
    rfl
  have plain : plainBytes (List.replicate 262146 0x80) = List.replicate 262146 0x80 := by
    rw [plainBytes, strip_continues all]
  have strands : Strands continues displayLimit [0x80] (List.replicate 262144 0x80) [0x80] :=
    ⟨List.cons_ne_nil _ _, all, List.length_replicate, ⟨0x80, rfl, rfl⟩, by decide⟩
  have same : List.replicate 262146 (0x80 : UInt8) =
      [0x80] ++ (List.replicate 262144 0x80 ++ [0x80]) := by
    rw [← List.replicate_succ']
    rfl
  have lost : drained (plainBytes (List.replicate 262146 0x80)) = [] := by
    obtain ⟨strays, some_, -, begins⟩ := strands.begins
    rw [← same, ← plain, ← drained_eq] at begins
    cases strays with
    | nil => exact absurd rfl some_
    | cons byte strays => exact (List.append_eq_nil_iff.mp (List.cons.inj begins).2.symm).2
  obtain ⟨rest, blank, -⟩ :=
    agrees_iff.mp faithful.agrees ⟨[0x80], [0x80], _, plain.trans same, strands⟩
  rw [lost] at blank
  have length := congrArg List.length blank
  rw [List.length_append, List.length_replicate] at length
  exact absurd length (Nat.ne_of_lt (Nat.lt_add_right _ (by decide)))

end Ui

end Idk
