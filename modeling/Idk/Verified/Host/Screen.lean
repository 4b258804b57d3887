import Idk.Host.Screen
import Mathlib.Control.Traversable.Instances
import Mathlib.Tactic.Linarith

/-!
# A snapshot fits into one frame

A cell takes at most 334 bytes as JSON: 202 for its names, colours and flags, and four for
each of 33 characters.  A screen has at most 12000 cells, and what surrounds them takes far
less than the rest of a frame.
-/

namespace Idk.Host

/-- What the actor keeps in the record of a session: checked ids and names, error texts
    shortened by `safe_error`, a directory as long as the system allows. -/
structure SessionInfo.Held (isUuid : IsUuid) (info : SessionInfo) : Prop where
  sessionId : isUuid info.sessionId = true
  projectId : isUuid info.projectId = true
  terminalId : isUuid info.terminalId = true
  name : validName info.name = .ok ()
  hostInstance : isUuid info.hostInstance = true
  inputEpoch : info.inputEpoch < 2 ^ 64
  owner : ∀ client, info.owner = some client → isUuid client = true
  generation : info.generation < 2 ^ 64
  childPid : ∀ pid, info.childPid = some pid → pid < 2 ^ 32
  cwd : ∀ path, info.cwd = some path → path.length ≤ 4096
  definitionRevision : info.definitionRevision < 2 ^ 64
  launchDigest : ∀ value, info.launchDigest = some value → digest value = .ok ()
  exit : ∀ exit, info.exit = some exit →
    exit.code < 2 ^ 32 ∧ ∀ signal, exit.signal = some signal → signal.utf8ByteSize ≤ 512
  error : ∀ error, info.error = some error → error.utf8ByteSize ≤ 512

end Idk.Host

namespace Idk.Terminal

open Idk.Logic
open Idk.Logic.Json (textWidth keyWidth charWidth intWidth boolWidth)
open Idk.Host (SessionInfo Slot OsPath IsUuid)

/-! ## Engines -/

theorem checkedSize_eq_ok {rows cols : Nat} :
    checkedSize rows cols = .ok () ↔ 0 < rows ∧ 2 ≤ cols ∧ rows * cols ≤ maxTerminalCells := by
  simp [checkedSize, bind_eq_ok, and_assoc]

/-- What every step of an engine keeps. -/
structure Engine.Bounded (engine : Engine) : Prop where
  cells : engine.term.screenLines * engine.term.columns ≤ maxTerminalCells
  renders : engine.term.Renders engine.term.screenLines engine.term.columns
  title : engine.title.length ≤ 256
  visible : ∀ char ∈ engine.title.toList, 0x20 ≤ char.toNat
  error : ∀ error, engine.error = some error → SystemText error
  generation : engine.generation < 2 ^ 64

namespace Engine.Bounded

variable {engine : Engine}

/-- An admitted size stays admitted when the terminal keeps it. -/
theorem withTerm (bounded : engine.Bounded) {term : Term}
    (renders : term.Renders engine.term.screenLines engine.term.columns) (limited : Bool) :
    { engine with term := term, outputLimited := limited }.Bounded where
  cells := by
    show term.screenLines * term.columns ≤ maxTerminalCells
    rw [renders.lines, renders.columns]
    exact bounded.cells
  renders := by
    show term.Renders term.screenLines term.columns
    rw [renders.lines, renders.columns]
    exact renders
  title := bounded.title
  visible := bounded.visible
  error := bounded.error
  generation := bounded.generation

theorem changed (bounded : engine.Bounded) : engine.changed.Bounded :=
  { bounded with
    generation := by
      show max ((engine.generation + 1) % 2 ^ 64) 1 < 2 ^ 64
      have wrapped := Nat.mod_lt (engine.generation + 1) (y := 2 ^ 64) (by decide)
      omega }

theorem changedIf (bounded : engine.Bounded) (condition : Bool) :
    (engine.changedIf condition).Bounded := by
  cases condition with
  | false => exact bounded
  | true => exact bounded.changed

theorem noted (bounded : engine.Bounded) {error : String} (system : SystemText error) :
    { engine with error := some error }.Bounded :=
  { bounded with
    error := fun found same => by
      cases same
      exact system }

theorem event (bounded : engine.Bounded) (event : TermEvent) : (engine.event event).Bounded := by
  cases event with
  | title title =>
    refine { bounded with title := ?_, visible := ?_ }
    · show (String.ofList ((title.toList.filter (!isControl ·)).take 256)).length ≤ 256
      rw [String.length_ofList]
      exact List.length_take_le _ _
    · show ∀ char ∈ (String.ofList ((title.toList.filter (!isControl ·)).take 256)).toList, _
      intro char mem
      rw [String.toList_ofList] at mem
      have kept := List.mem_of_mem_take mem
      simp only [List.mem_filter, Bool.not_eq_true'] at kept
      exact visible_of_not_control kept.2
  | resetTitle => exact { bounded with title := by simp [Engine.event], visible := by simp [Engine.event] }
  | other => exact bounded

theorem events (bounded : engine.Bounded) (events : List TermEvent) :
    (events.foldl Engine.event engine).Bounded := by
  induction events generalizing engine with
  | nil => exact bounded
  | cons first rest inductionHypothesis => exact inductionHypothesis (bounded.event first)

theorem takeEvents (bounded : engine.Bounded) (answers : Answers) :
    (engine.takeEvents answers).Bounded := by
  unfold Engine.takeEvents
  cases answers.events with
  | none =>
    have short : SystemText "terminal event queue lock failed" := by
      unfold SystemText
      decide
    exact bounded.noted short
  | some events =>
    have limited := bounded.withTerm bounded.renders (engine.outputLimited || answers.overflow)
    exact limited.events events

/-- The bytes or the flush have gone through the parser, and its events are taken. -/
theorem advanced (bounded : engine.Bounded) {answers : Answers}
    (renders : answers.term.Renders engine.term.screenLines engine.term.columns) :
    ((engine.parsed answers).takeEvents answers).Bounded :=
  (bounded.withTerm renders _).takeEvents answers

theorem step {after : Engine} {event : EngineEvent} (bounded : engine.Bounded)
    (step : engine.Step event after) : after.Bounded := by
  cases step with
  | processed renders => exact (bounded.advanced renders).changedIf _
  | @ticked flushed answers renders system =>
    have advanced := bounded.advanced renders
    apply Bounded.changedIf
    unfold Engine.flush
    cases written : answers.write with
    | none => exact advanced
    | some error => exact advanced.noted (system error written)
  | finished renders => exact Bounded.changed { bounded.advanced renders with }
  | failed system => exact bounded.noted system
  | @resized _ rows cols resized term renders done =>
    obtain ⟨_, admitted, done⟩ := bind_eq_ok.mp done
    obtain ⟨_, _, cells⟩ := checkedSize_eq_ok.mp admitted
    split at done
    · cases done
      exact bounded
    · simp only [bind_eq_ok, pure, Except.pure, Except.ok.injEq] at done
      obtain ⟨_, _, _, _, same⟩ := done
      cases same
      have renamed : term.Renders term.screenLines term.columns := by
        rw [renders.lines, renders.columns]
        exact renders
      have room : term.screenLines * term.columns ≤ maxTerminalCells := by
        rw [renders.lines, renders.columns]
        exact cells
      exact Bounded.changed { bounded with cells := room, renders := renamed }
  | scrolled renders => exact (bounded.withTerm renders _).changedIf _

theorem new {rows cols scrollback : Nat} {term : Term} (admitted : checkedSize rows cols = .ok ())
    (renders : term.Renders rows cols) : (Engine.new term scrollback).Bounded where
  cells := by
    show term.screenLines * term.columns ≤ maxTerminalCells
    rw [renders.lines, renders.columns]
    exact (checkedSize_eq_ok.mp admitted).2.2
  renders := by
    show term.Renders term.screenLines term.columns
    rw [renders.lines, renders.columns]
    exact renders
  title := by simp [Engine.new]
  visible := by simp [Engine.new]
  error := by simp [Engine.new]
  generation := by simp [Engine.new]

end Engine.Bounded

/-- Every engine has an admitted size and short texts. -/
theorem engine_bounded {engine : Engine} (reachable : engineSystem.Reachable engine) :
    engine.Bounded := by
  refine System.Invariant.reachable ⟨?_, ?_⟩ reachable
  · intro engine start
    obtain ⟨rows, cols, term, scrollback, admitted, renders, same⟩ := start
    cases same
    exact .new admitted renders
  · intro first event last bounded taken
    exact bounded.step taken

/-! ## The width of a screen -/

theorem byteWidth (value : UInt8) : intWidth value.toNat ≤ 3 :=
  Json.intWidth_le 3 (by decide) (lt_trans value.toNat_lt (by decide))

theorem width_color (color : TerminalColor) : color.toJson.width ≤ 21 := by
  cases color with
  | default => decide
  | indexed index =>
    have number := byteWidth index
    simp [TerminalColor.toJson, Json.width, Json.widthFields, Json.nat, keyWidth, charWidth,
      Char.utf8Size]
    omega
  | rgb r g b =>
    have red := byteWidth r
    have green := byteWidth g
    have blue := byteWidth b
    simp [TerminalColor.toJson, Json.width, Json.widthFields, Json.widthItems, Json.list, Json.nat,
      keyWidth, charWidth, Char.utf8Size]
    omega

theorem charWidth_printed {char : Char} (printed : Printed char) : charWidth char ≤ 4 := by
  cases printed with
  | inl visible => exact (Json.charWidth_visible visible).2
  | inr tab =>
    cases tab
    decide

theorem textWidth_printed {chars : List Char} (printed : ∀ char ∈ chars, Printed char) :
    textWidth (String.ofList chars) ≤ 4 * chars.length := by
  rw [textWidth, String.toList_ofList]
  induction chars with
  | nil => simp
  | cons char rest inductionHypothesis =>
    have first := charWidth_printed (printed char (by simp))
    have others := inductionHypothesis fun char mem => printed char (by simp [mem])
    simp only [List.map_cons, List.sum_cons, List.length_cons]
    omega

/-- One character and at most 32 marks. -/
theorem textWidth_cell {cell : Cell} (term : Term) (printed : Printed cell.c)
    (marks : ∀ mark ∈ cell.zerowidth, Printed mark) :
    textWidth (cell.shown term).text ≤ 132 := by
  have all : ∀ char ∈ cell.c :: cell.zerowidth.take maxCombiningMarks, Printed char := by
    intro char mem
    cases mem with
    | head => exact printed
    | tail _ later => exact marks char (List.mem_of_mem_take later)
  have wide := textWidth_printed all
  have clipped : (cell.zerowidth.take maxCombiningMarks).length ≤ 32 := List.length_take_le _ _
  simp only [List.length_cons] at wide
  show textWidth (String.ofList _) ≤ 132
  omega

theorem width_cell {cell : TerminalCell} (text : textWidth cell.text ≤ 132) :
    cell.toJson.width ≤ 334 := by
  have foreground := width_color cell.fg
  have background := width_color cell.bg
  have bold := Json.boolWidth_le cell.bold
  have dim := Json.boolWidth_le cell.dim
  have italic := Json.boolWidth_le cell.italic
  have underline := Json.boolWidth_le cell.underline
  have inverse := Json.boolWidth_le cell.inverse
  have strike := Json.boolWidth_le cell.strike
  have hidden := Json.boolWidth_le cell.hidden
  have wide := Json.boolWidth_le cell.wide
  have spacer := Json.boolWidth_le cell.wideSpacer
  simp [TerminalCell.toJson, Json.width, Json.widthFields, keyWidth, charWidth, Char.utf8Size]
  linarith

/-- The cells take 4020002 of the 4194304 bytes of a frame. -/
theorem width_cells {engine : Engine} (bounded : engine.Bounded) :
    (Json.list engine.snapshot.cells TerminalCell.toJson).width ≤ 12000 * 335 + 2 := by
  have each : ∀ cell ∈ engine.snapshot.cells, cell.toJson.width ≤ 334 := by
    intro cell mem
    simp only [Engine.snapshot, List.mem_map] at mem
    obtain ⟨kept, member, same⟩ := mem
    have printed := bounded.renders.printed kept member
    rw [← same]
    exact width_cell (textWidth_cell engine.term printed.1 printed.2)
  have total := Json.width_list each
  have count : engine.snapshot.cells.length ≤ maxTerminalCells := by
    simp only [Engine.snapshot, List.length_map, bounded.renders.dense]
    exact bounded.cells
  have most : engine.snapshot.cells.length * 335 ≤ 12000 * 335 := Nat.mul_le_mul_right 335 count
  exact total.trans (Nat.add_le_add_right most 2)

theorem width_u16 (value : Int) : intWidth (asU16 value) ≤ 5 := by
  have small : asU16 value < 10 ^ 5 := by
    unfold asU16
    omega
  exact Json.intWidth_le 5 (by decide) small

theorem width_cursor (term : Term) :
    (Json.optional term.cursor TerminalCursor.toJson).width ≤ 71 := by
  refine Json.width_optional (by decide) fun cursor same => ?_
  have row : intWidth cursor.row ≤ 5 ∧ intWidth cursor.col ≤ 5 := by
    simp only [Term.cursor] at same
    split at same
    · cases same
      exact ⟨width_u16 (term.cursorLine + term.displayOffset), width_u16 term.cursorColumn⟩
    · cases same
  have shape : cursor.shape.toJson.width ≤ 13 := by
    cases cursor.shape <;> decide
  have blinking := Json.boolWidth_le cursor.blinking
  simp [TerminalCursor.toJson, Json.width, Json.widthFields, Json.nat, keyWidth, charWidth,
    Char.utf8Size]
  omega

theorem width_modes (modes : TerminalModes) : modes.toJson.width ≤ 300 := by
  have cursor := Json.boolWidth_le modes.applicationCursor
  have keypad := Json.boolWidth_le modes.applicationKeypad
  have paste := Json.boolWidth_le modes.bracketedPaste
  have click := Json.boolWidth_le modes.mouseClick
  have motion := Json.boolWidth_le modes.mouseMotion
  have drag := Json.boolWidth_le modes.mouseDrag
  have sgr := Json.boolWidth_le modes.mouseSgr
  have utf8 := Json.boolWidth_le modes.mouseUtf8
  have focus := Json.boolWidth_le modes.focusReporting
  have alternate := Json.boolWidth_le modes.alternateScreen
  have newline := Json.boolWidth_le modes.newline
  simp [TerminalModes.toJson, Json.width, Json.widthFields, keyWidth, charWidth, Char.utf8Size]
  linarith

/-- A number of 64 bits. -/
theorem width_u64 {value : Nat} (small : value < 2 ^ 64) : intWidth value ≤ 20 :=
  Json.intWidth_le 20 (by decide) (lt_trans small (by decide))

theorem textWidth_bytes {text : String} {limit : Nat} (short : text.utf8ByteSize ≤ limit) :
    textWidth text ≤ 6 * limit :=
  (Json.textWidth_le text).trans (Nat.mul_le_mul_left 6 short)

theorem width_screen {engine : Engine} (bounded : engine.Bounded) :
    engine.snapshot.toJson.width ≤ 12000 * 335 + 6000 := by
  have cells := width_cells bounded
  have cursor : (Json.optional engine.snapshot.cursor _).width ≤ 71 := width_cursor engine.term
  have modes := width_modes engine.snapshot.modes
  have generation : intWidth engine.snapshot.generation ≤ 20 := width_u64 bounded.generation
  have rows : intWidth engine.snapshot.rows ≤ 5 := width_u16 engine.term.screenLines
  have cols : intWidth engine.snapshot.cols ≤ 5 := width_u16 engine.term.columns
  have offset : intWidth engine.snapshot.displayOffset ≤ 20 := width_u64 bounded.renders.offset
  have title : textWidth engine.snapshot.title ≤ 1024 := by
    have wide := (Json.textWidth_visible engine.title bounded.visible).2
    have short := bounded.title
    show textWidth engine.title ≤ 1024
    omega
  have error : (Json.optional engine.snapshot.error .str).width ≤ 3072 + 2 :=
    Json.width_optional_text (by decide) fun text same =>
      textWidth_bytes (bounded.error text same)
  have closed := Json.boolWidth_le engine.snapshot.readerClosed
  have limited := Json.boolWidth_le engine.snapshot.outputLimited
  simp [TerminalSnapshot.toJson, Json.width, Json.widthFields, Json.nat, keyWidth, charWidth,
    Char.utf8Size]
  linarith

/-! ## The width of a reply -/

theorem validName_visible {name : String} (valid : validName name = .ok ()) :
    textWidth name ≤ 400 := by
  simp only [validName, ensure_eq_ok, Bool.and_eq_true, decide_eq_true_eq, hasControl,
    Bool.not_eq_true', List.any_eq_false] at valid
  have visible : ∀ char ∈ name.toList, 0x20 ≤ char.toNat := by
    intro char mem
    have allowed := valid.2 char mem
    simp only [Bool.not_eq_true] at allowed
    exact visible_of_not_control allowed
  have wide := (Json.textWidth_visible name visible).2
  have short := valid.1.2
  omega

theorem textWidth_digest {value : String} (valid : digest value = .ok ()) :
    textWidth value ≤ 384 := by
  simp only [digest, ensure_eq_ok, Bool.and_eq_true, beq_iff_eq] at valid
  exact textWidth_bytes valid.1.le

theorem width_state (state : Host.SessionState) : state.toJson.width ≤ 11 := by
  cases state <;> decide

theorem width_exit {exit : TerminalExit} (code : exit.code < 2 ^ 32)
    (signal : ∀ text, exit.signal = some text → text.utf8ByteSize ≤ 512) :
    (Host.exitJson exit).width ≤ 3200 := by
  have number := Json.intWidth_le 10 (by decide) (lt_trans code (by decide))
  have text : (Json.optional exit.signal .str).width ≤ 3072 + 2 :=
    Json.width_optional_text (by decide) fun text same => textWidth_bytes (signal text same)
  simp [Host.exitJson, Json.width, Json.widthFields, Json.nat, keyWidth, charWidth,
    Char.utf8Size]
  omega

theorem pathText_bytes {path : OsPath} {text : String} (decoded : pathText path = .ok text) :
    text.utf8ByteSize = path.length := by
  simp only [pathText, context_eq_ok, String.fromUTF8?] at decoded
  split at decoded
  · cases decoded
    simp [String.utf8ByteSize, String.fromUTF8, ByteArray.size]
  · cases decoded

theorem pathText_some {path : Option OsPath} {text : String}
    (decoded : path.mapM pathText = .ok (some text)) :
    ∃ found, path = some found ∧ pathText found = .ok text := by
  cases path with
  | none => cases decoded
  | some path =>
    cases read : pathText path with
    | error error => simp [Option.mapM, read, Functor.map, Except.map] at decoded
    | ok found =>
      simp [Option.mapM, read, Functor.map, Except.map] at decoded
      cases decoded
      exact ⟨path, rfl, read⟩

theorem width_session {isUuid : IsUuid} {info : SessionInfo}
    (uuids : ∀ text, isUuid text = true → text.utf8ByteSize ≤ 45) (held : info.Held isUuid)
    {cwd : Option String} (directory : ∀ text, cwd = some text → text.utf8ByteSize ≤ 4096) :
    (sessionJson info cwd).width ≤ 40000 := by
  have id {text : String} (valid : isUuid text = true) : textWidth text ≤ 270 :=
    textWidth_bytes (uuids text valid)
  have sessionId := id held.sessionId
  have projectId := id held.projectId
  have terminalId := id held.terminalId
  have hostInstance := id held.hostInstance
  have name := validName_visible held.name
  have persistent := Json.boolWidth_le info.persistent
  have state := width_state info.state
  have initialization : (Json.optional info.initialization initializationJson).width ≤ 14 :=
    Json.width_optional (by decide) fun state _ => by cases state <;> decide
  have epoch := width_u64 held.inputEpoch
  have owner : (Json.optional info.owner ownerJson).width ≤ 300 :=
    Json.width_optional (by decide) fun client same => by
      have width := id (held.owner client same)
      simp [ownerJson, Json.width, Json.widthFields, keyWidth, charWidth, Char.utf8Size]
      omega
  have generation := width_u64 held.generation
  have pid : (Json.optional info.childPid .nat).width ≤ 20 :=
    Json.width_optional (by decide) fun pid same =>
      width_u64 (lt_trans (held.childPid pid same) (by decide))
  have path : (Json.optional cwd .str).width ≤ 24576 + 2 :=
    Json.width_optional_text (by decide) fun text same => textWidth_bytes (directory text same)
  have revision := width_u64 held.definitionRevision
  have hash : (Json.optional info.launchDigest .str).width ≤ 384 + 2 :=
    Json.width_optional_text (by decide) fun text same =>
      textWidth_digest (held.launchDigest text same)
  have exit : (Json.optional info.exit Host.exitJson).width ≤ 3200 :=
    Json.width_optional (by decide) fun exit same =>
      width_exit (held.exit exit same).1 (held.exit exit same).2
  have error : (Json.optional info.error .str).width ≤ 3072 + 2 :=
    Json.width_optional_text (by decide) fun text same => textWidth_bytes (held.error text same)
  simp [sessionJson, Json.width, Json.widthFields, Json.nat, keyWidth, charWidth, Char.utf8Size]
  linarith

theorem bytes_fitting (room : Nat) (text : List Char) : Json.bytes (fitting room text) ≤ room := by
  induction text generalizing room with
  | nil => simp [fitting]
  | cons char rest inductionHypothesis =>
    unfold fitting
    split
    · have others := inductionHypothesis (room - char.utf8Size)
      rw [Json.bytes_cons]
      omega
    · simp

/-- `safe_error` keeps at most 512 bytes. -/
theorem safeError_bytes (error : String) : (safeError error).utf8ByteSize ≤ 512 := by
  rw [safeError, Json.utf8ByteSize_ofList]
  exact bytes_fitting 512 _

theorem width_response {response : Response Json} {limit : Nat}
    (protocol : response.protocol = protocolVersion)
    (request : response.requestId.utf8ByteSize ≤ 45)
    (host : response.hostInstance.utf8ByteSize ≤ 45)
    (data : (response.data.getD .null).width ≤ limit)
    (error : ∀ text, response.error = some text → text.utf8ByteSize ≤ 512) :
    (responseJson response).width ≤ limit + 4000 := by
  have requestWidth := textWidth_bytes request
  have hostWidth := textWidth_bytes host
  have errorWidth : (Json.optional response.error .str).width ≤ 3072 + 2 :=
    Json.width_optional_text (by decide) fun text same => textWidth_bytes (error text same)
  have version : intWidth response.protocol ≤ 1 := by
    rw [protocol]
    decide
  simp [responseJson, Json.width, Json.widthFields, Json.nat, keyWidth, charWidth, Char.utf8Size]
  linarith

/-- A reply names the generation of the screen it shows, or the one the client has. -/
theorem Held.reply {isUuid : IsUuid} {slot : Slot} {since : Option Nat}
    {shown : Option TerminalSnapshot} (held : slot.info.Held isUuid)
    (known : ∀ generation ∈ since, generation < 2 ^ 64)
    (screens : ∀ screen ∈ shown, screen.generation < 2 ^ 64) :
    (snapshotReply slot since shown).session.Held isUuid := by
  refine { held with generation := ?_ }
  unfold snapshotReply
  dsimp only
  split
  · rename_i screen found
    exact screens screen (Option.filter_eq_some_iff.mp found).1
  · exact known _ rfl
  · exact held.generation

/-- The data of a reply leave 128 KiB of a frame free. -/
theorem width_reply {isUuid : IsUuid} {reply : SnapshotReply} {data : Json}
    (uuids : ∀ text, isUuid text = true → text.utf8ByteSize ≤ 45)
    (held : reply.session.Held isUuid)
    (screens : ∀ screen, reply.screen = some screen → screen.toJson.width ≤ 12000 * 335 + 6000)
    (written : reply.toJson = .ok data) : data.width ≤ 12000 * 335 + 46050 := by
  obtain ⟨cwd, decoded, same⟩ := bind_eq_ok.mp written
  cases same
  have directory : ∀ text, cwd = some text → text.utf8ByteSize ≤ 4096 := by
    intro text present
    cases present
    obtain ⟨path, found, read⟩ := pathText_some decoded
    rw [pathText_bytes read]
    exact held.cwd path found
  have session := width_session uuids held directory
  have screen : (Json.optional reply.screen TerminalSnapshot.toJson).width ≤ 12000 * 335 + 6000 :=
    Json.width_optional (by decide) screens
  simp [Json.width, Json.widthFields, keyWidth, charWidth, Char.utf8Size]
  linarith

/-- `execute` answers a `Snapshot` with this reply. -/
theorem snapshotOf_shows {slot : Slot} {since : Option Nat} {shown : Option TerminalSnapshot}
    {terminal : Result (Option Git.TerminalSnapshot)} (shows : Shows slot since shown terminal) :
    Host.snapshotOf slot since terminal =
      .ok (.snapshot (snapshotReply slot since shown).session
        ((snapshotReply slot since shown).screen.map TerminalSnapshot.observed)) := by
  cases shows with
  | @frozen screen _ kept =>
    by_cases same : since = some screen.generation
    · simp [Host.snapshotOf, snapshotReply, kept, same, Option.filter, TerminalSnapshot.observed,
        pure, Except.pure, bind, Except.bind]
    · have other : some screen.generation ≠ since := fun equal => same equal.symm
      simp [Host.snapshotOf, snapshotReply, kept, same, other, Option.filter,
        TerminalSnapshot.observed, pure, Except.pure, bind, Except.bind]
  | @live screen open_ running =>
    by_cases same : since = some screen.generation
    · simp [Host.snapshotOf, snapshotReply, open_, running, same, Option.filter, bind, Except.bind,
        pure, Except.pure]
    · have other : some screen.generation ≠ since := fun equal => same equal.symm
      simp [Host.snapshotOf, snapshotReply, open_, running, other, Option.filter,
        TerminalSnapshot.observed, bind, Except.bind, pure, Except.pure]
  | ended gone reaped =>
    cases since <;>
      simp [Host.snapshotOf, snapshotReply, gone, reaped, bind, Except.bind, pure, Except.pure]

/-- Whatever a session shows, the reply to a `Snapshot` fits into one frame. -/
theorem snapshot_fits {isUuid : IsUuid}
    (uuids : ∀ text, isUuid text = true → text.utf8ByteSize ≤ 45) {slot : Slot}
    (held : slot.info.Held isUuid) {since : Option Nat}
    (known : ∀ generation ∈ since, generation < 2 ^ 64) {shown : Option TerminalSnapshot}
    {terminal : Result (Option Git.TerminalSnapshot)} (shows : Shows slot since shown terminal)
    (seen : ∀ screen ∈ shown, ∃ engine, engineSystem.Reachable engine ∧ engine.snapshot = screen)
    {requestId : String} (request : isUuid requestId = true) :
    let reply := snapshotReply slot since shown
    let response := snapshotResponse requestId slot.info.hostInstance reply
    Host.snapshotOf slot since terminal =
        .ok (.snapshot reply.session (reply.screen.map TerminalSnapshot.observed)) ∧
      (responseJson response).encode.utf8ByteSize ≤ maxMessage ∧
      frameBody response = .ok (responseJson response).encode := by
  intro reply response
  have screens : ∀ screen ∈ shown,
      screen.toJson.width ≤ 12000 * 335 + 6000 ∧ screen.generation < 2 ^ 64 := by
    intro screen mem
    obtain ⟨engine, reachable, snapshot⟩ := seen screen mem
    rw [← snapshot]
    have bounded := engine_bounded reachable
    exact ⟨width_screen bounded, bounded.generation⟩
  have session : reply.session.Held isUuid := Held.reply held known fun screen mem =>
    (screens screen mem).2
  have requestShort := uuids requestId request
  have hostShort := uuids slot.info.hostInstance held.hostInstance
  have fits : (responseJson response).width ≤ 12000 * 335 + 46050 + 4000 := by
    cases written : reply.toJson with
    | ok data =>
      have dataWidth := width_reply uuids session (fun screen same =>
        (screens screen (Option.filter_eq_some_iff.mp same).1).1) written
      have same : response = (Response.success requestId data).withHost slot.info.hostInstance := by
        simp only [response, snapshotResponse, written]
      rw [same]
      exact width_response rfl requestShort hostShort dataWidth (fun text none => by cases none)
    | error error =>
      -- a directory that is not UTF-8: the reply is its error
      have same : response = (Response.failure requestId error).withHost slot.info.hostInstance := by
        simp only [response, snapshotResponse, written]
      rw [same]
      refine width_response rfl requestShort hostShort (Nat.le_add_left 4 _) fun text same => ?_
      cases same
      exact safeError_bytes error
  have small : (responseJson response).width ≤ maxMessage := fits.trans (by decide)
  refine ⟨snapshotOf_shows shows, ?_, ?_⟩
  · rw [Json.utf8ByteSize_encode]
    exact small
  · simp [frameBody, small, bind, Except.bind, pure, Except.pure]

/-! ### A blank terminal -/

def sampleUuid : String := "11111111-1111-4111-8111-111111111111"

def blankCell : Cell where
  c := ' '
  zerowidth := []
  fg := .named 256
  bg := .named 257
  flags := ⟨false, false, false, false, false, false, false, false, false, false⟩

def blankTerm : Term where
  screenLines := 1
  columns := 2
  cells := [blankCell, blankCell]
  displayOffset := 0
  cursorLine := 0
  cursorColumn := 0
  cursorShape := .block
  cursorBlinking := false
  mode := ⟨true, false, false, false, false, false, false, false, false, false, false, false⟩
  colors _ := none

/-- A terminal that runs in `/`. -/
def sampleSlot : Slot :=
  { Slot.new { SessionInfo.new sampleUuid sampleUuid sampleUuid sampleUuid "shell" true with
      state := .running
      owner := some sampleUuid
      childPid := some 7
      cwd := some [0x2f] } (.terminal none) sampleUuid with
    preparing := false
    runtime := some ⟨some 7, false, [], 1, "", false⟩ }

theorem blankTerm_renders : blankTerm.Renders 1 2 where
  lines := rfl
  columns := rfl
  dense := rfl
  printed := by
    intro cell mem
    have same : cell = blankCell := by
      simpa [blankTerm] using mem
    subst same
    exact ⟨by decide, fun _ => nofun⟩
  offset := by decide

theorem sampleSlot_held : sampleSlot.info.Held (· == sampleUuid) where
  sessionId := by decide
  projectId := by decide
  terminalId := by decide
  name := by decide
  hostInstance := by decide
  inputEpoch := by decide
  owner := by simp [sampleSlot, Slot.new]
  generation := by decide
  childPid := by simp [sampleSlot, Slot.new]
  cwd := by simp [sampleSlot, Slot.new]
  definitionRevision := by decide
  launchDigest := by simp [sampleSlot, Slot.new, SessionInfo.new]
  exit := by simp [sampleSlot, Slot.new, SessionInfo.new]
  error := by simp [sampleSlot, Slot.new, SessionInfo.new]

theorem sample_snapshot_fits :
    frameBody (snapshotResponse sampleUuid sampleUuid
        (snapshotReply sampleSlot none (some (Engine.new blankTerm 100).snapshot))) =
      .ok (responseJson (snapshotResponse sampleUuid sampleUuid
        (snapshotReply sampleSlot none (some (Engine.new blankTerm 100).snapshot)))).encode := by
  have uuids : ∀ text, (text == sampleUuid) = true → text.utf8ByteSize ≤ 45 := by
    intro text same
    rw [beq_iff_eq.mp same]
    decide
  have reachable : engineSystem.Reachable (Engine.new blankTerm 100) :=
    .start ⟨1, 2, blankTerm, 100, by decide, blankTerm_renders, rfl⟩
  have known : ∀ generation ∈ (none : Option Nat), generation < 2 ^ 64 := by simp
  have fits := snapshot_fits uuids sampleSlot_held known (.live rfl rfl)
    (fun screen same => ⟨_, reachable, Option.some.inj same⟩) (beq_self_eq_true sampleUuid)
  exact fits.2.2

end Idk.Terminal
