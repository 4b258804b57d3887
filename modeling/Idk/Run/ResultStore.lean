import Idk.Run.Encoding

/-!
# The store of result bodies

`ResultStore` (`result_store.rs`), as far as a body is put into it and taken out of it
again.  A run id and a digest have no dot in them, so the three parts of a file's name
are kept apart.
-/

namespace Idk

open Idk.Logic

/-- `TOTAL_RESULT_BYTES`. -/
def totalResultBytes : Nat := 256 * 1024 * 1024

/-- The name of a file in `results/`. -/
structure BodyName where
  runId : String
  sha256 : String
  events : Bool
deriving DecidableEq, Repr

def BodyReference.named (body : BodyReference) (events : Bool) : BodyName :=
  ⟨body.runId, body.sha256, events⟩

/-- The files of the store, by name, with what they hold. -/
abbrev Bodies := List (BodyName × List UInt8)

/-- UUIDs, SHA-256 in hexadecimal and the path of the store. -/
structure StoreFormats where
  isUuid : String → Bool
  sha256 : List UInt8 → String
  root : String

namespace StoreFormats

variable (formats : StoreFormats)

def validId (value : String) : Result Unit := ensure (formats.isUuid value) "invalid object id"

/-- `path.display()`. -/
def display (name : BodyName) : String :=
  formats.root ++ "/" ++ name.runId ++ "." ++ name.sha256 ++
    if name.events then ".events" else ".json"

/-- The checks of `path`. -/
def checkPath (body : BodyReference) (events : Bool) : Result Unit := do
  formats.validId body.runId
  ensure (body.sha256.utf8ByteSize == 64 && body.sha256.toList.all isAsciiHexdigit)
    "invalid result digest"
  ensure (body.bytes ≤ if events then maxEventBytes else maxResultBytes)
    "invalid result body length"

end StoreFormats

/-- How the writing of a new file ends; a failed one may leave the file, or a part of it. -/
inductive Written where
  | complete
  | failed (error : String) (left : Option (List UInt8))

/-- What the file system answers to one operation of the store. -/
structure StoreAnswers where
  lock : Result Unit
  /-- `symlink_metadata`, but for whether there is a file. -/
  stat : Result Unit := .ok ()
  /-- `File::open`, `metadata` and `read_to_end`. -/
  read : Result Unit
  /-- The file is a regular one of this user that nobody else may read or write. -/
  isPrivate : Bool
  sync : Result Unit
  /-- `read_dir` and the metadata of every entry. -/
  list : Result Unit
  write : Written
  /-- `remove_file`. -/
  unlink : Result Unit

/-- `store::read_private`. -/
def StoreAnswers.readPrivate (answers : StoreAnswers) (path : String) (limit : Nat)
    (content : List UInt8) : Result (List UInt8) := do
  answers.read
  ensure answers.isPrivate
    (path ++ " must be a regular file owned by this user with mode 0600")
  ensure (content.length ≤ limit) (path ++ " exceeds size limit")
  pure content

namespace Bodies

/-- `bytes_used`. -/
def bytesUsed (bodies : Bodies) : Nat := (bodies.map (·.2.length)).sum

def without (bodies : Bodies) (name : BodyName) : Bodies := bodies.filter (·.1 != name)

/-- What `put` finds at the path of the body. -/
def existing (formats : StoreFormats) (answers : StoreAnswers) (name : BodyName)
    (bytes content : List UInt8) : Result Unit := do
  let found ← answers.readPrivate (formats.display name) bytes.length content
  ensure (found == bytes) "existing immutable result differs; preserved"
  answers.sync

/-- `put`: a reference to the stored bytes, or the state of a result that finds no room. -/
def put (formats : StoreFormats) (answers : StoreAnswers) (runId : String) (bytes : List UInt8)
    (events : Bool) (bodies : Bodies) : Result (Except StructuredResult BodyReference) × Bodies :=
  let body : BodyReference := ⟨runId, formats.sha256 bytes, bytes.length⟩
  let name := body.named events
  let checked : Result Unit := do
    formats.validId runId
    formats.checkPath body events
    answers.lock
  match checked with
  | .error error => (.error error, bodies)
  | .ok () =>
    -- a file whose metadata cannot be read is not seen here
    match answers.stat.toOption.bind fun () => bodies.lookup name with
    | some content =>
      (existing formats answers name bytes content >>= fun () => .ok (.ok body), bodies)
    | none =>
      match answers.list with
      | .error error => (.error error, bodies)
      | .ok () =>
        if totalResultBytes < saturatingAdd bodies.bytesUsed body.bytes then
          (.ok (.error (.limited totalResultBytes body.bytes)), bodies)
        else if (bodies.lookup name).isSome then
          -- `create_new` refuses a name that is taken
          (.error "File exists (os error 17)", bodies)
        else
          match answers.write with
          | .complete => (.ok (.ok body), (name, bytes) :: bodies)
          | .failed error left =>
            (.error error, left.elim bodies fun part => (name, part) :: bodies)

/-- `remove`: only a file that still has the length and the digest of the reference goes. -/
def remove (formats : StoreFormats) (answers : StoreAnswers) (body : BodyReference)
    (events : Bool) (bodies : Bodies) : Result Unit × Bodies :=
  let name := body.named events
  let checked : Result Unit := do
    answers.lock
    formats.checkPath body events
  match checked with
  | .error error => (.error error, bodies)
  | .ok () =>
    match bodies.lookup name with
    | none => (answers.stat, bodies)
    | some content =>
      let found : Result Unit := do
        answers.stat
        let bytes ← answers.readPrivate (formats.display name)
          (if events then maxEventBytes else maxResultBytes) content
        ensure (bytes.length == body.bytes && formats.sha256 bytes == body.sha256)
          "retired result bytes changed; preserved with cleanup intent"
        answers.unlink
      match found with
      | .error error => (.error error, bodies)
      | .ok () => (answers.sync, bodies.without name)

end Bodies

end Idk
