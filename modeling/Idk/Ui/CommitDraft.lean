import Idk.Logic.ByteIndex
import Idk.Model.Editor
import Idk.Text

/-!
# The editor of a commit message

`CommitDraft` (`ui/git_draft.rs`).  Slicing inside of a character has no result.  The width of
a line is the sum of the widths of its characters.
-/

namespace Idk.Ui

open Idk.Logic

/-- `CommitDraft`, its text as a list of characters and its cursor as a byte index. -/
structure CommitDraft where
  text : List Char
  cursor : Nat
  deriving DecidableEq, Repr

inductive KeyCode where
  | home
  | «end»
  | char (character : Char)
  | left
  | right
  | up
  | down
  | enter
  | backspace
  | delete
  | other
  deriving DecidableEq, Repr

structure KeyEvent where
  code : KeyCode
  control : Bool
  alt : Bool
  super : Bool
  deriving DecidableEq, Repr

/-- The text that is inserted: `text.replace("\r\n", "\n")`. -/
def lineBreaks (text : List Char) : List Char := Model.replaceAll ['\r', '\n'] ['\n'] 0 text

/-- `Line::width` of a text without a line break. -/
def lineWidth (width : Char → Nat) (text : List Char) : Nat := (text.map width).sum

def newline (char : Char) : Bool := char == '\n'

/-- The loop of `CommitDraft::vertical` over the characters of the line. -/
def reach (width : Char → Nat) (column : Nat) : List Char → Nat → Nat → Nat
  | [], _, cursor => cursor
  | character :: rest, taken, cursor =>
    if column < taken + width character then cursor
    else reach width column rest (taken + width character) (cursor + character.utf8Size)

namespace CommitDraft

/-- `CommitDraft::default`. -/
def default : CommitDraft := { text := [], cursor := 0 }

/-- `CommitDraft::insert`, with the draft it leaves. -/
def insert (draft : CommitDraft) (text : List Char) : Option (Result Unit × CommitDraft) :=
  let text := lineBreaks text
  if text.any fun character => isControl character && character != '\n' then
    some (.error "Only message text and line breaks can be inserted.", draft)
  else if 65536 < byteLength draft.text + byteLength text then
    some (.error "Commit message exceeds 64 KiB; the draft is unchanged.", draft)
  else do
    let (before, behind) ← splitAt draft.text draft.cursor
    return (.ok (), { text := before ++ text ++ behind, cursor := draft.cursor + byteLength text })

def lineStart (draft : CommitDraft) : Option Nat := do
  let before ← upTo draft.text draft.cursor
  return (findLast newline before).elim 0 (· + 1)

def lineEnd (draft : CommitDraft) : Option Nat := do
  let behind ← onward draft.text draft.cursor
  return (findFirst newline behind).elim (byteLength draft.text) (draft.cursor + ·)

/-- `CommitDraft::position`: the line and the column. -/
def position (width : Char → Nat) (draft : CommitDraft) : Option (Nat × Nat) := do
  let before ← upTo draft.text draft.cursor
  let start ← draft.lineStart
  let line ← between draft.text start draft.cursor
  return (before.countP newline, lineWidth width line)

/-- `CommitDraft::vertical`. -/
def vertical (width : Char → Nat) (draft : CommitDraft) (down : Bool) : Option CommitDraft := do
  let (_, column) ← draft.position width
  if down then
    let stop ← draft.lineEnd
    if stop = byteLength draft.text then return draft
    else
      let start := stop + 1
      let behind ← onward draft.text start
      let stop := (findFirst newline behind).elim (byteLength draft.text) (start + ·)
      let line ← between draft.text start stop
      return { draft with cursor := reach width column line 0 start }
  else
    let start ← draft.lineStart
    if start = 0 then return draft
    else
      let stop := start - 1
      let before ← upTo draft.text stop
      let start := (findLast newline before).elim 0 (· + 1)
      let line ← between draft.text start stop
      return { draft with cursor := reach width column line 0 start }

/-- A drained range, with the cursor at its start. -/
def cut (draft : CommitDraft) (start stop : Nat) : Option CommitDraft := do
  let text ← drain draft.text start stop
  return { text, cursor := start }

/-- `CommitDraft::key`, with the draft it leaves. -/
def key (width : Char → Nat) (draft : CommitDraft) (key : KeyEvent) :
    Option (Result Unit × CommitDraft) :=
  let done (next : CommitDraft) : Result Unit × CommitDraft := (.ok (), next)
  let move (cursor : Nat) : Result Unit × CommitDraft := done { draft with cursor }
  match key.code, key.control with
  | .home, true => some (move 0)
  | .end, true => some (move (byteLength draft.text))
  | .home, false => draft.lineStart.map move
  | .end, false => draft.lineEnd.map move
  | .char 'a', true => draft.lineStart.map move
  | .char 'e', true => draft.lineEnd.map move
  | .char 'u', true => do
    let start ← draft.lineStart
    let next ← draft.cut start draft.cursor
    return done next
  | .char 'k', true => do
    let stop ← draft.lineEnd
    let next ← draft.cut draft.cursor stop
    return done next
  | .left, _ => do
    let before ← upTo draft.text draft.cursor
    return move ((lastIndex before).getD 0)
  | .right, _ => do
    match ← onward draft.text draft.cursor with
    | character :: _ => return move (draft.cursor + character.utf8Size)
    | [] => return done draft
  | .up, _ => (draft.vertical width false).map done
  | .down, _ => (draft.vertical width true).map done
  | .enter, _ => draft.insert ['\n']
  | .backspace, _ =>
    if 0 < draft.cursor then do
      let before ← upTo draft.text draft.cursor
      let index ← lastIndex before
      let next ← draft.cut index draft.cursor
      return done next
    else some (done draft)
  | .delete, _ => do
    match ← onward draft.text draft.cursor with
    | character :: _ =>
      let next ← draft.cut draft.cursor (draft.cursor + character.utf8Size)
      return done next
    | [] => return done draft
  | .char character, control =>
    if control || key.alt || key.super then some (done draft) else draft.insert [character]
  | .other, _ => some (done draft)

end CommitDraft

/-- What happens to a draft: a key, or a paste. -/
inductive Action where
  | key (event : KeyEvent)
  | insert (text : List Char)

def CommitDraft.act (width : Char → Nat) (draft : CommitDraft) :
    Action → Option (Result Unit × CommitDraft)
  | .key event => draft.key width event
  | .insert text => draft.insert text

/-- The draft behind a sequence of actions; what is refused is shown and goes on. -/
def CommitDraft.edit (width : Char → Nat) : CommitDraft → List Action → Option CommitDraft
  | draft, [] => some draft
  | draft, action :: rest => do
    let (_, next) ← draft.act width action
    next.edit width rest

end Idk.Ui
