import Idk.Host.Requests
import Idk.Logic.Transition

/-!
# The terminal screen and its frame

`Engine` (`terminal.rs`): what a session keeps of its terminal and shows in a snapshot, and
how the snapshot reply becomes one frame (`protocol.rs`).  The VT emulator is external: a
`Term` is what the host reads of it.
-/

namespace Idk.Terminal

open Idk.Logic (Json System)
open Idk.Host (SessionInfo Slot OsPath)

/-- `MAX_TERMINAL_CELLS`. -/
def maxTerminalCells : Nat := 12000

/-- `MAX_COMBINING_MARKS`. -/
def maxCombiningMarks : Nat := 32

/-- `MAX_SCROLLBACK_CELLS`. -/
def maxScrollbackCells : Nat := 4000000

/-- `MAX_MESSAGE`. -/
def maxMessage : Nat := 4 * 1024 * 1024

/-! ## The emulator, as far as it is read -/

structure Rgb where
  r : UInt8
  g : UInt8
  b : UInt8
deriving DecidableEq, Repr

/-- `vte::ansi::Color`; a named colour is its index. -/
inductive Color where
  | spec (rgb : Rgb)
  | indexed (index : UInt8)
  | named (index : Nat)
deriving DecidableEq, Repr

structure Flags where
  bold : Bool
  dim : Bool
  italic : Bool
  allUnderlines : Bool
  inverse : Bool
  strikeout : Bool
  hidden : Bool
  wideChar : Bool
  wideCharSpacer : Bool
  leadingWideCharSpacer : Bool
deriving DecidableEq, Repr

structure Cell where
  c : Char
  zerowidth : List Char
  fg : Color
  bg : Color
  flags : Flags
deriving DecidableEq, Repr

inductive CursorShape where
  | block
  | underline
  | beam
  | hollowBlock
  | hidden
deriving DecidableEq, Repr

structure TermMode where
  showCursor : Bool
  appCursor : Bool
  appKeypad : Bool
  bracketedPaste : Bool
  mouseReportClick : Bool
  mouseMotion : Bool
  mouseDrag : Bool
  sgrMouse : Bool
  utf8Mouse : Bool
  focusInOut : Bool
  altScreen : Bool
  lineFeedNewLine : Bool
deriving DecidableEq, Repr

/-- `alacritty_terminal::Term`; `cells` is what its display iterator yields. -/
structure Term where
  screenLines : Nat
  columns : Nat
  cells : List Cell
  displayOffset : Nat
  cursorLine : Int
  cursorColumn : Nat
  cursorShape : CursorShape
  cursorBlinking : Bool
  mode : TermMode
  colors : Nat → Option Rgb

/-- `alacritty_terminal::event::Event`, without the events that only ask for a reply. -/
inductive TermEvent where
  | title (title : String)
  | resetTitle
  | other
deriving DecidableEq, Repr

/-! ## Snapshots -/

inductive TerminalColor where
  | default
  | indexed (index : UInt8)
  | rgb (r g b : UInt8)
deriving DecidableEq, Repr

structure TerminalCell where
  text : String
  fg : TerminalColor
  bg : TerminalColor
  bold : Bool
  dim : Bool
  italic : Bool
  underline : Bool
  inverse : Bool
  strike : Bool
  hidden : Bool
  wide : Bool
  wideSpacer : Bool
deriving DecidableEq, Repr

inductive TerminalCursorShape where
  | block
  | underline
  | beam
  | hollowBlock
deriving DecidableEq, Repr

structure TerminalCursor where
  row : Nat
  col : Nat
  shape : TerminalCursorShape
  blinking : Bool
deriving DecidableEq, Repr

structure TerminalModes where
  applicationCursor : Bool
  applicationKeypad : Bool
  bracketedPaste : Bool
  mouseClick : Bool
  mouseMotion : Bool
  mouseDrag : Bool
  mouseSgr : Bool
  mouseUtf8 : Bool
  focusReporting : Bool
  alternateScreen : Bool
  newline : Bool
deriving DecidableEq, Repr

structure TerminalSnapshot where
  generation : Nat
  rows : Nat
  cols : Nat
  cells : List TerminalCell
  cursor : Option TerminalCursor
  displayOffset : Nat
  modes : TerminalModes
  title : String
  readerClosed : Bool
  error : Option String
  outputLimited : Bool
deriving DecidableEq, Repr

/-- What the actor itself reads of a snapshot. -/
def TerminalSnapshot.observed (screen : TerminalSnapshot) : Git.TerminalSnapshot :=
  ⟨screen.generation, screen.outputLimited, screen.error⟩

/-- `BASE`, a constant of `palette`. -/
def base : List Rgb := [
  ⟨0, 0, 0⟩, ⟨205, 0, 0⟩, ⟨0, 205, 0⟩, ⟨205, 205, 0⟩,
  ⟨0, 0, 238⟩, ⟨205, 0, 205⟩, ⟨0, 205, 205⟩, ⟨229, 229, 229⟩,
  ⟨127, 127, 127⟩, ⟨255, 0, 0⟩, ⟨0, 255, 0⟩, ⟨255, 255, 0⟩,
  ⟨92, 92, 255⟩, ⟨255, 0, 255⟩, ⟨0, 255, 255⟩, ⟨255, 255, 255⟩]

def baseColor (index : Nat) : Rgb := base.getD index ⟨0, 0, 0⟩

/-- `palette`. -/
def palette (index : Nat) : Rgb :=
  if index ≤ 15 then baseColor index
  else if index ≤ 231 then
    let n := index - 16
    let level (n : Nat) : UInt8 := if n = 0 then 0 else .ofNat (55 + n * 40)
    ⟨level (n / 36), level (n / 6 % 6), level (n % 6)⟩
  else if index ≤ 255 then
    let v : UInt8 := .ofNat (8 + (index - 232) * 10)
    ⟨v, v, v⟩
  else if index = 257 then ⟨0, 0, 0⟩
  else if 259 ≤ index ∧ index ≤ 266 then
    let dimmed := baseColor (index - 259)
    ⟨dimmed.r / 2, dimmed.g / 2, dimmed.b / 2⟩
  else ⟨229, 229, 229⟩

def Rgb.shown (rgb : Rgb) : TerminalColor := .rgb rgb.r rgb.g rgb.b

/-- `convert_color` of an index: an explicit colour of the terminal comes first. -/
def indexColor (index : Nat) (term : Term) : TerminalColor :=
  match term.colors index with
  | some rgb => rgb.shown
  | none =>
    if index ≤ 255 then .indexed (.ofNat index)
    else if 259 ≤ index ∧ index ≤ 266 then (palette index).shown
    else .default

/-- `convert_color`. -/
def convertColor (color : Color) (term : Term) : TerminalColor :=
  match color with
  | .spec rgb => rgb.shown
  | .indexed index => indexColor index.toNat term
  | .named index => indexColor index term

/-- One cell of a snapshot; the combining marks are clipped at once. -/
def Cell.shown (cell : Cell) (term : Term) : TerminalCell where
  text := String.ofList (cell.c :: cell.zerowidth.take maxCombiningMarks)
  fg := convertColor cell.fg term
  bg := convertColor cell.bg term
  bold := cell.flags.bold
  dim := cell.flags.dim
  italic := cell.flags.italic
  underline := cell.flags.allUnderlines
  inverse := cell.flags.inverse
  strike := cell.flags.strikeout
  hidden := cell.flags.hidden
  wide := cell.flags.wideChar
  wideSpacer := cell.flags.wideCharSpacer || cell.flags.leadingWideCharSpacer

def CursorShape.shown : CursorShape → TerminalCursorShape
  | .underline => .underline
  | .beam => .beam
  | .hollowBlock => .hollowBlock
  | .block | .hidden => .block

/-- `as u16`. -/
def asU16 (value : Int) : Nat := (value % 65536).toNat

def Term.cursor (term : Term) : Option TerminalCursor :=
  let row := term.cursorLine + term.displayOffset
  if term.mode.showCursor ∧ term.cursorShape ≠ .hidden ∧ 0 ≤ row ∧ row < term.screenLines then
    some ⟨asU16 row, asU16 term.cursorColumn, term.cursorShape.shown, term.cursorBlinking⟩
  else none

def TermMode.shown (mode : TermMode) : TerminalModes where
  applicationCursor := mode.appCursor
  applicationKeypad := mode.appKeypad
  bracketedPaste := mode.bracketedPaste
  mouseClick := mode.mouseReportClick
  mouseMotion := mode.mouseMotion
  mouseDrag := mode.mouseDrag
  mouseSgr := mode.sgrMouse
  mouseUtf8 := mode.utf8Mouse
  focusReporting := mode.focusInOut
  alternateScreen := mode.altScreen
  newline := mode.lineFeedNewLine

/-! ## The engine -/

/-- `Size::checked`. -/
def checkedSize (rows cols : Nat) : Result Unit := do
  ensure (0 < rows && 2 ≤ cols) "terminal size requires rows > 0 and columns >= 2"
  ensure (rows * cols ≤ maxTerminalCells) "terminal screen exceeds cell limit"

/-- The fields of `Engine` that a snapshot shows; `scrollback` is what `resize` checks. -/
structure Engine where
  term : Term
  scrollback : Nat
  title : String
  readerClosed : Bool
  error : Option String
  outputLimited : Bool
  generation : Nat

namespace Engine

/-- `Engine::new`, of a terminal of a checked size. -/
def new (term : Term) (scrollback : Nat) : Engine where
  term := term
  scrollback := scrollback
  title := ""
  readerClosed := false
  error := none
  outputLimited := false
  generation := 1

/-- `changed`: the generation wraps around and is never 0. -/
def changed (engine : Engine) : Engine :=
  { engine with generation := max ((engine.generation + 1) % 2 ^ 64) 1 }

def changedIf (condition : Bool) (engine : Engine) : Engine :=
  if condition then engine.changed else engine

/-- What the emulator, its event queue and the descriptors answer. -/
structure Answers where
  /-- The terminal after the bytes, the flush or the scrolling. -/
  term : Term
  /-- An excessive control string or combining sequence was limited. -/
  limited : Bool
  /-- `none` when the lock of the event queue fails. -/
  events : Option (List TermEvent)
  /-- The event queue overflowed, or a reply did not fit. -/
  overflow : Bool
  /-- The error of the one write of `flush`. -/
  write : Option String

/-- One event. -/
def event (engine : Engine) : TermEvent → Engine
  | .title title =>
    { engine with title := String.ofList ((title.toList.filter (!isControl ·)).take 256) }
  | .resetTitle => { engine with title := "" }
  | .other => engine

/-- `events`. -/
def takeEvents (engine : Engine) (answers : Answers) : Engine :=
  match answers.events with
  | none => { engine with error := some "terminal event queue lock failed" }
  | some events =>
    events.foldl event
      { engine with outputLimited := engine.outputLimited || answers.overflow }

/-- The parser has changed the terminal; the storage of its cells is limited. -/
def parsed (engine : Engine) (answers : Answers) : Engine :=
  { engine with
    term := answers.term
    outputLimited := engine.outputLimited || answers.limited }

/-- `process`; `hasBytes` says that some bytes pass the filter. -/
def process (engine : Engine) (hasBytes : Bool) (answers : Answers) : Engine :=
  let after := (engine.parsed answers).takeEvents answers
  after.changedIf (hasBytes || engine.outputLimited != after.outputLimited)

/-- The error of `flush`: the input was closed, or its descriptor failed. -/
def flush (engine : Engine) (answers : Answers) : Engine :=
  match answers.write with
  | some error => { engine with error := some error }
  | none => engine

/-- `tick`; `flushed` says that a synchronized update has expired. -/
def tick (engine : Engine) (flushed : Bool) (answers : Answers) : Engine :=
  let after := ((engine.parsed answers).takeEvents answers).flush answers
  after.changedIf (flushed || engine.error != after.error ||
    engine.outputLimited != after.outputLimited || engine.title != after.title)

/-- `finish_output`. -/
def finishOutput (engine : Engine) (answers : Answers) : Engine :=
  let after := (engine.parsed answers).takeEvents answers
  { after with readerClosed := true }.changed

/-- A loop over the descriptors notes an error. -/
def noteError (engine : Engine) (error : String) : Engine := { engine with error := some error }

/-- `TerminalSession::resize`; `resized` is what the PTY answers, `term` the terminal after. -/
def resize (engine : Engine) (rows cols : Nat) (resized : Result Unit) (term : Term) :
    Result Engine := do
  checkedSize rows cols
  if engine.term.screenLines = rows ∧ engine.term.columns = cols then
    pure engine
  else do
    ensure (engine.scrollback * cols ≤ maxScrollbackCells)
      "resized scrollback exceeds cell limit"
    resized
    pure { engine with term := term }.changed

/-- `TerminalSession::scroll`. -/
def scroll (engine : Engine) (term : Term) : Engine :=
  { engine with term := term }.changedIf
    (engine.term.displayOffset != term.displayOffset)

/-- `snapshot`. -/
def snapshot (engine : Engine) : TerminalSnapshot where
  generation := engine.generation
  rows := asU16 engine.term.screenLines
  cols := asU16 engine.term.columns
  cells := engine.term.cells.map (·.shown engine.term)
  cursor := engine.term.cursor
  displayOffset := engine.term.displayOffset
  modes := engine.term.mode.shown
  title := engine.title
  readerClosed := engine.readerClosed
  error := engine.error
  outputLimited := engine.outputLimited ||
    engine.term.cells.any fun cell => maxCombiningMarks < cell.zerowidth.length

end Engine

/-! ## What is promised from outside -/

/-- A character that is not escaped but for a quote, a backslash or a tab. -/
def Printed (char : Char) : Prop := 0x20 ≤ char.toNat ∨ char = '\t'

instance (char : Char) : Decidable (Printed char) := inferInstanceAs (Decidable (_ ∨ _))

/-- The emulator shows its whole screen and executes control characters; only a tab is
    kept in a cell.  Its offset is a `usize`. -/
structure Term.Renders (term : Term) (rows cols : Nat) : Prop where
  lines : term.screenLines = rows
  columns : term.columns = cols
  dense : term.cells.length = rows * cols
  printed : ∀ cell ∈ term.cells, Printed cell.c ∧ ∀ mark ∈ cell.zerowidth, Printed mark
  offset : term.displayOffset < 2 ^ 64

/-- An error text with what the system says in it; the standard library reads the
    system's text into a buffer of 128 bytes. -/
def SystemText (text : String) : Prop := text.utf8ByteSize ≤ 512

/-- What happens to the engine of one session. -/
inductive EngineEvent where
  | processed (hasBytes : Bool) (answers : Engine.Answers)
  | ticked (flushed : Bool) (answers : Engine.Answers)
  | finished (answers : Engine.Answers)
  | failed (error : String)
  | resized (rows cols : Nat) (resized : Result Unit) (term : Term)
  | scrolled (term : Term)

inductive Engine.Step : Engine → EngineEvent → Engine → Prop where
  | processed {engine : Engine} {hasBytes : Bool} {answers : Answers}
      (renders : answers.term.Renders engine.term.screenLines engine.term.columns) :
      Step engine (.processed hasBytes answers) (engine.process hasBytes answers)
  | ticked {engine : Engine} {flushed : Bool} {answers : Answers}
      (renders : answers.term.Renders engine.term.screenLines engine.term.columns)
      (system : ∀ error ∈ answers.write, SystemText error) :
      Step engine (.ticked flushed answers) (engine.tick flushed answers)
  | finished {engine : Engine} {answers : Answers}
      (renders : answers.term.Renders engine.term.screenLines engine.term.columns) :
      Step engine (.finished answers) (engine.finishOutput answers)
  | failed {engine : Engine} {error : String} (system : SystemText error) :
      Step engine (.failed error) (engine.noteError error)
  | resized {engine after : Engine} {rows cols : Nat} {resized : Result Unit} {term : Term}
      (renders : term.Renders rows cols)
      (done : engine.resize rows cols resized term = .ok after) :
      Step engine (.resized rows cols resized term) after
  | scrolled {engine : Engine} {term : Term}
      (renders : term.Renders engine.term.screenLines engine.term.columns) :
      Step engine (.scrolled term) (engine.scroll term)

/-- The engines of a terminal that was spawned with a checked size. -/
def engineSystem : System Engine EngineEvent where
  init engine := ∃ rows cols term scrollback,
    checkedSize rows cols = .ok () ∧ term.Renders rows cols ∧ engine = .new term scrollback
  step := Engine.Step

/-! ## The reply and its frame -/

def TerminalColor.toJson : TerminalColor → Json
  | .default => .str "Default"
  | .indexed index => .obj [("Indexed", .nat index.toNat)]
  | .rgb r g b => .obj [("Rgb", .list [r, g, b] fun value => .nat value.toNat)]

def TerminalCell.toJson (cell : TerminalCell) : Json := .obj [
  ("text", .str cell.text),
  ("fg", cell.fg.toJson),
  ("bg", cell.bg.toJson),
  ("bold", .bool cell.bold),
  ("dim", .bool cell.dim),
  ("italic", .bool cell.italic),
  ("underline", .bool cell.underline),
  ("inverse", .bool cell.inverse),
  ("strike", .bool cell.strike),
  ("hidden", .bool cell.hidden),
  ("wide", .bool cell.wide),
  ("wide_spacer", .bool cell.wideSpacer)]

def TerminalCursorShape.toJson : TerminalCursorShape → Json
  | .block => .str "Block"
  | .underline => .str "Underline"
  | .beam => .str "Beam"
  | .hollowBlock => .str "HollowBlock"

def TerminalCursor.toJson (cursor : TerminalCursor) : Json := .obj [
  ("row", .nat cursor.row),
  ("col", .nat cursor.col),
  ("shape", cursor.shape.toJson),
  ("blinking", .bool cursor.blinking)]

def TerminalModes.toJson (modes : TerminalModes) : Json := .obj [
  ("application_cursor", .bool modes.applicationCursor),
  ("application_keypad", .bool modes.applicationKeypad),
  ("bracketed_paste", .bool modes.bracketedPaste),
  ("mouse_click", .bool modes.mouseClick),
  ("mouse_motion", .bool modes.mouseMotion),
  ("mouse_drag", .bool modes.mouseDrag),
  ("mouse_sgr", .bool modes.mouseSgr),
  ("mouse_utf8", .bool modes.mouseUtf8),
  ("focus_reporting", .bool modes.focusReporting),
  ("alternate_screen", .bool modes.alternateScreen),
  ("newline", .bool modes.newline)]

def TerminalSnapshot.toJson (screen : TerminalSnapshot) : Json := .obj [
  ("generation", .nat screen.generation),
  ("rows", .nat screen.rows),
  ("cols", .nat screen.cols),
  ("cells", .list screen.cells TerminalCell.toJson),
  ("cursor", .optional screen.cursor TerminalCursor.toJson),
  ("display_offset", .nat screen.displayOffset),
  ("modes", screen.modes.toJson),
  ("title", .str screen.title),
  ("reader_closed", .bool screen.readerClosed),
  ("error", .optional screen.error .str),
  ("output_limited", .bool screen.outputLimited)]

def initializationJson : Host.InitializationState → Json
  | .initializing => .str "Initializing"
  | .unobserved => .str "Unobserved"
  | .ready => .str "Ready"
  | .failed => .str "Failed"

def ownerJson (client : String) : Json := .obj [("client_id", .str client)]

/-- `serde` writes a path only as a text. -/
def pathText (path : OsPath) : Result String :=
  context (String.fromUTF8? ⟨path.toArray⟩) "path contains invalid UTF-8 characters"

/-- `session` with its directory as a text. -/
def sessionJson (info : SessionInfo) (cwd : Option String) : Json := .obj [
  ("session_id", .str info.sessionId),
  ("project_id", .str info.projectId),
  ("terminal_id", .str info.terminalId),
  ("name", .str info.name),
  ("host_instance", .str info.hostInstance),
  ("persistent", .bool info.persistent),
  ("state", info.state.toJson),
  ("initialization", .optional info.initialization initializationJson),
  ("input_epoch", .nat info.inputEpoch),
  ("owner", .optional info.owner ownerJson),
  ("generation", .nat info.generation),
  ("child_pid", .optional info.childPid .nat),
  ("cwd", .optional cwd .str),
  ("definition_revision", .nat info.definitionRevision),
  ("launch_digest", .optional info.launchDigest .str),
  ("exit", .optional info.exit Host.exitJson),
  ("error", .optional info.error .str)]

structure SnapshotReply where
  session : SessionInfo
  screen : Option TerminalSnapshot

/-- `serde_json::to_value`. -/
def SnapshotReply.toJson (reply : SnapshotReply) : Result Json := do
  let cwd ← reply.session.cwd.mapM pathText
  pure (.obj [
    ("session", sessionJson reply.session cwd),
    ("screen", .optional reply.screen TerminalSnapshot.toJson)])

/-- `Request::Snapshot` of a slot whose terminal shows `shown`: the screen is left out when
    the client has it already. -/
def snapshotReply (slot : Slot) (since : Option Nat) (shown : Option TerminalSnapshot) :
    SnapshotReply :=
  let screen := shown.filter fun screen => some screen.generation != since
  { session := { slot.info with
      generation :=
        match screen, since with
        | some screen, _ => screen.generation
        | none, some since => since
        | none, none => slot.info.generation }
    screen := screen }

/-- What a slot shows: its last screen, or that of its terminal, which answers as
    `snapshot_since` does. -/
inductive Shows (slot : Slot) (since : Option Nat) :
    Option TerminalSnapshot → Result (Option Git.TerminalSnapshot) → Prop where
  | frozen {screen : TerminalSnapshot} {terminal : Result (Option Git.TerminalSnapshot)}
      (kept : slot.frozen = some screen.observed) : Shows slot since (some screen) terminal
  | live {screen : TerminalSnapshot} (open_ : slot.frozen = none)
      (running : slot.runtime.isSome = true) :
      Shows slot since (some screen)
        (.ok (if some screen.generation != since then some screen.observed else none))
  | ended {terminal : Result (Option Git.TerminalSnapshot)} (gone : slot.frozen = none)
      (reaped : slot.runtime = none) : Shows slot since none terminal

def responseJson (response : Response Json) : Json := .obj [
  ("protocol", .nat response.protocol),
  ("request_id", .str response.requestId),
  ("host_instance", .str response.hostInstance),
  ("data", response.data.getD .null),
  ("error", .optional response.error .str)]

/-- The response to a `Snapshot`. -/
def snapshotResponse (requestId hostInstance : String) (reply : SnapshotReply) :
    Response Json :=
  match reply.toJson with
  | .ok data => (Response.success requestId data).withHost hostInstance
  | .error error => (Response.failure requestId error).withHost hostInstance

/-- The check of `write_frame_deadline`, and the body that is written. -/
def frameBody (response : Response Json) : Result String := do
  let body := (responseJson response).encode
  ensure (body.utf8ByteSize ≤ maxMessage)
    "IPC response exceeds allowed size; reduce terminal dimensions"
  pure body

end Idk.Terminal
