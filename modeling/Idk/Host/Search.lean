import Idk.Host.Screen
import Idk.Logic.ByteIndex
import Mathlib.Data.Prod.Lex

/-!
# Search in a terminal

`TerminalSession::search` (`terminal.rs`).  `Grid` is the screen with the rows above it that are
retained; where `scroll_to_point` scrolls to is an answer of the emulator.
-/

namespace Idk.Terminal

open Idk.Logic

structure TerminalMatch where
  line : Int
  column : Nat
  deriving DecidableEq, Repr

namespace TerminalMatch

/-- The derived order: the line counts before the column. -/
def key (point : TerminalMatch) : Int ×ₗ Nat := toLex (point.line, point.column)

theorem key_injective : Function.Injective key := by
  intro left right same
  cases left
  cases right
  simpa [key] using same

instance : LinearOrder TerminalMatch := LinearOrder.lift' key key_injective

end TerminalMatch

/-- The cells of a terminal; the rows that are scrolled off have negative lines. -/
structure Grid where
  screenLines : Nat
  columns : Nat
  history : Nat
  cell : Int → Nat → Cell
  checked : checkedSize screenLines columns = .ok ()

/-- What a session keeps for its searches: the query, the match and the generation of the last
    one. -/
structure Searcher where
  engine : Engine
  searchCursor : Option (String × TerminalMatch × Nat)

/-! ## The matches of a row -/

/-- The text of a cell, where a hidden one is blank. -/
def Cell.searched (cell : Cell) : List Char :=
  if cell.flags.hidden then [' '] else cell.c :: cell.zerowidth.take maxCombiningMarks

/-- One column of a row: the text so far, and for each cell where its text starts. -/
def readCell (grid : Grid) (line : Int) (read : List Char × List (Nat × Nat)) (column : Nat) :
    List Char × List (Nat × Nat) :=
  let cell := grid.cell line column
  if cell.flags.wideCharSpacer || cell.flags.leadingWideCharSpacer then read
  else (read.1 ++ cell.searched, read.2 ++ [(byteLength read.1, asU16 column)])

def readRow (grid : Grid) (line : Int) : List Char × List (Nat × Nat) :=
  (List.range grid.columns).foldl (readCell grid line) ([], [])

/-- `match_indices`, of a pattern that is not empty; `skip` characters of a match are left. -/
def matchIndices (query : List Char) : Nat → Nat → List Char → List Nat
  | _, _, [] => []
  | skip + 1, offset, char :: rest => matchIndices query skip (offset + char.utf8Size) rest
  | 0, offset, char :: rest =>
    if query.isPrefixOf (char :: rest) then
      offset :: matchIndices query (query.length - 1) (offset + char.utf8Size) rest
    else matchIndices query 0 (offset + char.utf8Size) rest

/-- `partition_point` of a list whose elements under the condition come first. -/
def partitionPoint (columns : List (Nat × Nat)) (offset : Nat) : Nat :=
  (columns.takeWhile (·.1 ≤ offset)).length

def rowMatches (grid : Grid) (query : List Char) (line : Int) : List TerminalMatch :=
  let (text, columns) := readRow grid line
  (matchIndices query 0 0 text).filterMap fun offset =>
    columns[partitionPoint columns offset - 1]?.map fun (_, column) => { line, column }

/-- The matches of all rows, in the order in which they are met. -/
def Grid.matches (grid : Grid) (query : List Char) : List TerminalMatch :=
  (List.range (grid.history + grid.screenLines)).flatMap fun row : Nat =>
    rowMatches grid query ((row : Int) - grid.history)

/-! ## The search -/

structure Marks where
  first : Option TerminalMatch
  last : Option TerminalMatch
  next : Option TerminalMatch
  previous : Option TerminalMatch

/-- The body of the inner loop; a search that starts anew may also find its anchor. -/
def Marks.note (anchor : TerminalMatch) (anew : Bool) (marks : Marks) (point : TerminalMatch) :
    Marks where
  first := if marks.first.isNone then some point else marks.first
  last := some point
  next :=
    if marks.next.isNone && (anchor < point || (anew && point == anchor)) then some point
    else marks.next
  previous :=
    if point < anchor || (anew && point == anchor) then some point else marks.previous

def startAnchor (grid : Grid) (engine : Engine) (backwards : Bool) : TerminalMatch :=
  if backwards then
    { line := grid.screenLines - 1 - engine.term.displayOffset, column := asU16 grid.columns - 1 }
  else { line := -engine.term.displayOffset, column := 0 }

/-- `TerminalSession::search`. -/
def search (scrollToPoint : Term → TerminalMatch → Term) (grid : Grid) (searcher : Searcher)
    (query : String) (backwards : Bool) :
    Result ((Option TerminalMatch × Nat) × Searcher) := do
  ensure (!query.isEmpty && query.utf8ByteSize ≤ 256 && !hasControl query)
    "search needs 1–256 bytes of visible text"
  let engine := searcher.engine
  let old := (searcher.searchCursor.filter fun (text, _, generation) =>
    text == query && generation == engine.generation).map fun (_, point, _) => point
  let anchor := old.getD (startAnchor grid engine backwards)
  let marks := (grid.matches query.toList).foldl (Marks.note anchor old.isNone)
    { first := none, last := none, next := none, previous := none }
  let found := if backwards then marks.previous.or marks.last else marks.next.or marks.first
  let rows := grid.history + grid.screenLines
  match found with
  | none => return ((none, rows), searcher)
  | some point =>
    let engine := { engine with term := scrollToPoint engine.term point }.changed
    return ((some point, rows),
      { engine, searchCursor := some (query, point, engine.generation) })

end Idk.Terminal
