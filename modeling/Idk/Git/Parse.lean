import Idk.Text

/-!
# What Git prints

The parsers of Git's machine-readable answers (`git/parse.rs`) and the values they make
(`git/types.rs`).  The debug notation of a character is taken as a function of it.
-/

namespace Idk.Git

/-! ## File names and object ids -/

/-- The checks of `GitPath::from_bytes`. -/
def checkPath (bytes : List UInt8) : Result Unit := do
  ensure (!bytes.isEmpty && bytes.length ≤ 8192 && !bytes.contains 0) "invalid Git filename"
  ensure (bytes.head? != some 47 &&
      !(bytes.splitOn 47).any fun part => part == [46, 46] || part == [46] || part.isEmpty)
    "Git filename must stay inside its repository"

structure GitPath where
  bytes : List UInt8
  inside : checkPath bytes = .ok ()
deriving DecidableEq

/-- `from_bytes`. -/
def GitPath.fromBytes (bytes : List UInt8) : Result GitPath :=
  match checked : checkPath bytes with
  | .ok () => .ok ⟨bytes, checked⟩
  | .error error => .error error

def asciiLowercase (text : String) : String := String.ofList (text.toList.map Char.toLower)

/-- The text of an object id in either case. -/
def isObjectId (value : String) : Bool :=
  (value.utf8ByteSize == 40 || value.utf8ByteSize == 64) && value.toList.all isAsciiHexdigit

structure ObjectId where
  text : String
  lower : ∃ value, isObjectId value = true ∧ text = asciiLowercase value

instance : DecidableEq ObjectId := fun first second =>
  decidable_of_iff (first.text = second.text) ⟨fun same => by
    cases first
    cases second
    cases same
    rfl, congrArg ObjectId.text⟩

/-- `ObjectId::parse`. -/
def ObjectId.parse (value : String) : Result ObjectId :=
  if valid : isObjectId value = true then .ok ⟨asciiLowercase value, value, valid, rfl⟩
  else .error "invalid Git object ID"

/-! ## Texts -/

/-- `text`. -/
def text (bytes : List UInt8) : Result String :=
  match String.fromUTF8? ⟨bytes.toArray⟩ with
  | some value =>
    if value.toList.contains '\x00' then .error "Git returned an unsupported text field"
    else .ok value
  | none => .error "Git returned an unsupported text field"

/-- `split_whitespace`. -/
def splitWhitespace (value : String) : List String :=
  ((value.toList.splitOnP isWhitespace).filter (· ≠ [])).map String.ofList

/-- `strip_prefix` of one character. -/
def stripSign (sign : Char) (value : String) : Option String :=
  match value.toList with
  | first :: rest => if first = sign then some (String.ofList rest) else none
  | [] => none

/-- One digit more of a number within `limit`, as `from_str_radix` reads it. -/
def nextDigit (limit : Nat) (outside : String) (value : Nat) (digit : Char) : Result Nat := do
  ensure digit.isDigit "invalid digit found in string"
  let next := 10 * value + (digit.toNat - '0'.toNat)
  ensure (next ≤ limit) outside
  return next

/-- The digits of a number behind its sign. -/
def readDigits (limit : Nat) (outside : String) (digits : List Char) : Result Nat := do
  ensure (!digits.isEmpty) "invalid digit found in string"
  digits.foldlM (nextDigit limit outside) 0

/-- `parse::<u64>`. -/
def parseU64 (value : String) : Result Nat :=
  let largest := "number too large to fit in target type"
  match value.toList with
  | [] => .error "cannot parse integer from empty string"
  | '+' :: digits => readDigits (2 ^ 64 - 1) largest digits
  | digits => readDigits (2 ^ 64 - 1) largest digits

/-- `parse::<i64>`. -/
def parseI64 (value : String) : Result Int :=
  let largest := "number too large to fit in target type"
  match value.toList with
  | [] => .error "cannot parse integer from empty string"
  | '-' :: digits => do
    let magnitude ← readDigits (2 ^ 63) "number too small to fit in target type" digits
    return -magnitude
  | '+' :: digits => do
    let magnitude ← readDigits (2 ^ 63 - 1) largest digits
    return magnitude
  | digits => do
    let magnitude ← readDigits (2 ^ 63 - 1) largest digits
    return magnitude

/-- The character that a text begins with, if its bytes are valid. -/
def firstChar (bytes : List UInt8) : Option Char :=
  [1, 2, 3, 4].findSome? fun size =>
    match (String.fromUTF8? ⟨(bytes.take size).toArray⟩).map String.toList with
    | some [char] => if char.utf8Size = size then some char else none
    | _ => none

/-- `\\x{:02x}`. -/
def hexByte (byte : UInt8) : List Char :=
  ['\\', 'x', Nat.digitChar (byte.toNat / 16), Nat.digitChar (byte.toNat % 16)]

/-- The loop of `display_bytes`; every byte of an invalid sequence is shown by its number. -/
def displayFrom (escapeDebug : Char → List Char) : Nat → List UInt8 → List Char
  | 0, _ => []
  | _, [] => []
  | fuel + 1, byte :: rest =>
    match firstChar (byte :: rest) with
    | some char =>
      escapeDebug char ++ displayFrom escapeDebug fuel ((byte :: rest).drop char.utf8Size)
    | none => hexByte byte ++ displayFrom escapeDebug fuel rest

/-- `display_bytes`. -/
def displayBytes (escapeDebug : Char → List Char) (bytes : List UInt8) : String :=
  String.ofList (displayFrom escapeDebug bytes.length bytes)

/-! ## Status -/

structure GitChange where
  path : GitPath
  originalPath : Option GitPath
  indexStatus : Char
  worktreeStatus : Char
  conflict : Bool
  untracked : Bool
  submodule : Option String
deriving DecidableEq

structure Porcelain where
  entries : List GitChange
  upstream : Option String
  ahead : Option Nat
  behind : Option Nat
deriving DecidableEq

def Porcelain.empty : Porcelain where
  entries := []
  upstream := none
  ahead := none
  behind := none

def bytesOf (text : String) : List UInt8 := text.toByteArray.data.toList

/-- `byte as char`. -/
def charOf (byte : UInt8) : Char := Char.ofNat byte.toNat

/-- `splitn` at blanks. -/
def splitN : Nat → List UInt8 → List (List UInt8)
  | 0, _ => []
  | 1, bytes => [bytes]
  | count + 2, bytes =>
    match bytes.dropWhile (· != 32) with
    | [] => [bytes]
    | _ :: rest => bytes.takeWhile (· != 32) :: splitN (count + 1) rest

/-- A count of `# branch.ab`, behind its sign. -/
def branchCount (sign : Char) (error : String) (value : Option String) : Result Nat := do
  let digits ← context (value.bind (stripSign sign)) error
  parseU64 digits

/-- A header: git explicitly permits unknown optional ones. -/
def header (parsed : Porcelain) (record : List UInt8) : Result Porcelain := do
  let parsed ← match (bytesOf "# branch.upstream ").isPrefixOf? record with
    | none => .ok parsed
    | some value => do
      let upstream ← text value
      .ok { parsed with upstream := some upstream }
  match (bytesOf "# branch.ab ").isPrefixOf? record with
  | none => return parsed
  | some value => do
    let value ← text value
    let counts := splitWhitespace value
    let ahead ← branchCount '+' "invalid ahead count" counts[0]?
    let behind ← branchCount '-' "invalid behind count" counts[1]?
    return { parsed with ahead := some ahead, behind := some behind }

/-- The name of an untracked or ignored file, without the mark of a directory. -/
def unmarked (path : List UInt8) : List UInt8 :=
  if path.getLast? = some 47 then path.dropLast else path

/-- A file that is not tracked. -/
def untrackedChange (record : List UInt8) : Result GitChange := do
  let path ← GitPath.fromBytes (unmarked (record.drop 2))
  return {
    path := path
    originalPath := none
    indexStatus := '?'
    worktreeStatus := '?'
    conflict := false
    untracked := true
    submodule := none }

/-- How many fields a record of a tracked file has, and whether it is a conflict or a rename. -/
def recordKind (record : List UInt8) : Result (Nat × Bool × Bool) :=
  if record.head? = some 49 then .ok (9, false, false)
  else if record.head? = some 50 then .ok (10, false, true)
  else if record.head? = some 117 then .ok (11, true, false)
  else .error "unrecognized Git status record"

/-- The fields of a record of a tracked file. -/
def recordParts (fields : Nat) (record : List UInt8) : Result (List (List UInt8)) := do
  let parts := splitN fields record
  ensure (parts.length == fields && (parts.getD 1 []).length == 2 && (parts.getD 2 []).length == 4)
    "invalid Git status record"
  return parts

/-- The change that the fields tell of. -/
def trackedChange (parts : List (List UInt8)) (conflict : Bool) (originalPath : Option GitPath) :
    Result GitChange := do
  let path ← GitPath.fromBytes (parts.getLast?.getD [])
  let states := parts.getD 1 []
  let submodule := parts.getD 2 []
  let submodule ← if submodule.head? = some 83 then (text submodule).map some else .ok none
  return {
    path := path
    originalPath := originalPath
    indexStatus := charOf (states.getD 0 0)
    worktreeStatus := charOf (states.getD 1 0)
    conflict := conflict
    untracked := false
    submodule := submodule }

namespace Porcelain

def with_ (parsed : Porcelain) (change : GitChange) : Porcelain :=
  { parsed with entries := parsed.entries ++ [change] }

/-- The loop of `status` over the records; a rename takes the next one too. -/
def records (parsed : Porcelain) : List (List UInt8) → Result Porcelain
  | [] => .ok parsed
  | record :: rest =>
    if record.isEmpty then parsed.records rest
    else if record.head? = some 35 then do
      let parsed ← header parsed record
      parsed.records rest
    else if (bytesOf "? ").isPrefixOf record || (bytesOf "! ").isPrefixOf record then do
      let change ← untrackedChange record
      (parsed.with_ change).records rest
    else
      match recordKind record with
      | .error error => .error error
      | .ok (fields, conflict, renamed) =>
        match recordParts fields record with
        | .error error => .error error
        | .ok parts =>
          if renamed then
            match rest with
            | [] => .error "incomplete rename record"
            | original :: rest => do
              let original ← GitPath.fromBytes original
              let change ← trackedChange parts conflict (some original)
              (parsed.with_ change).records rest
          else do
            let change ← trackedChange parts conflict none
            (parsed.with_ change).records rest

end Porcelain

/-- `status`. -/
def status (bytes : List UInt8) : Result Porcelain := do
  ensure (bytes.isEmpty || bytes.getLast? == some 0) "incomplete Git status response"
  Porcelain.empty.records (bytes.splitOn 0)

/-! ## The raw diff -/

/-- What the metadata of an entry says: its status and whether it is a submodule. -/
def rawMetadata (metadata : List UInt8) : Result (Char × Bool) := do
  ensure (metadata.head? == some 58) "invalid Git raw diff header"
  let fields := (metadata.drop 1).splitOn 32
  ensure (fields.length == 5 && !(fields.getD 4 []).isEmpty) "invalid Git raw diff fields"
  let _ ← text (fields.getD 2 []) >>= ObjectId.parse
  let _ ← text (fields.getD 3 []) >>= ObjectId.parse
  let status := charOf ((fields.getD 4 []).headD 0)
  ensure (status != 'R' && status != 'C') "raw diff unexpectedly enabled renames"
  return (status, fields.getD 0 [] == bytesOf "160000" || fields.getD 1 [] == bytesOf "160000")

/-- The loop of `raw_diff`. -/
def rawRecords (entries : List GitChange) : List (List UInt8) → Result (List GitChange)
  | [] => .ok entries
  | metadata :: rest =>
    if metadata.isEmpty then rawRecords entries rest
    else
      match rawMetadata metadata with
      | .error error => .error error
      | .ok (status, submodule) =>
        match rest with
        | [] => .error "raw diff missing path"
        | path :: rest => do
          let path ← GitPath.fromBytes path
          rawRecords (entries ++ [{
            path := path
            originalPath := none
            indexStatus := status
            worktreeStatus := '.'
            conflict := status == 'U'
            untracked := false
            submodule := if submodule then some "S..." else none }]) rest

/-- `raw_diff`. -/
def rawDiff (bytes : List UInt8) : Result (List GitChange) := do
  ensure (bytes.isEmpty || bytes.getLast? == some 0) "incomplete Git raw diff"
  rawRecords [] (bytes.splitOn 0)

/-! ## History -/

structure CommitSummary where
  oid : ObjectId
  parents : List ObjectId
  author : String
  authoredAt : Int
  subject : String
deriving DecidableEq

/-- A row of the history. -/
def historyRow (escapeDebug : Char → List Char) (oid parents author authoredAt subject : List UInt8) :
    Result CommitSummary := do
  let oid ← text oid >>= ObjectId.parse
  let parents ← text parents
  let parents ← (splitWhitespace parents).mapM ObjectId.parse
  let authoredAt ← text authoredAt >>= parseI64
  return {
    oid := oid
    parents := parents
    author := displayBytes escapeDebug author
    authoredAt := authoredAt
    subject := displayBytes escapeDebug subject }

/-- The rows of five fields. -/
def historyRows (escapeDebug : Char → List Char) : List (List UInt8) → Result (List CommitSummary)
  | oid :: parents :: author :: authoredAt :: subject :: rest => do
    let row ← historyRow escapeDebug oid parents author authoredAt subject
    let rows ← historyRows escapeDebug rest
    return row :: rows
  | _ => .ok []

/-- `history`. -/
def history (escapeDebug : Char → List Char) (bytes : List UInt8) : Result (List CommitSummary) :=
  if bytes.isEmpty then .ok []
  else do
    ensure (bytes.getLast? == some 0) "incomplete history response"
    let fields := bytes.dropLast.splitOn 0
    ensure (fields.length % 5 == 0) "invalid history field count"
    historyRows escapeDebug fields

end Idk.Git
