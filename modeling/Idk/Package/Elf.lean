import Idk.Base

/-!
# The check of a static executable

`verify_static_elf` (`package.rs`).  An access out of range or an arithmetic overflow ends a
`Checked` computation without a result; `usize` has 64 bits.
-/

namespace Idk.Package

/-- A function that returns or panics. -/
abbrev Checked := ExceptT String Option

instance : MonadLift Result Checked := ⟨fun result => ExceptT.mk (some result)⟩

/-- What fits in memory: no allocation exceeds `isize::MAX` bytes. -/
abbrev Bytes := { bytes : List UInt8 // bytes.length < 2 ^ 63 }

/-- `bytes[index]`. -/
def byteAt (bytes : List UInt8) (index : Nat) : Option UInt8 := bytes[index]?

/-- `&bytes[start..stop]`. -/
def slice (bytes : List UInt8) (start stop : Nat) : Option (List UInt8) :=
  if start ≤ stop ∧ stop ≤ bytes.length then some ((bytes.drop start).take (stop - start)) else none

/-- `from_le_bytes`. -/
def fromLittleEndian (bytes : List UInt8) : Nat :=
  bytes.foldr (fun byte value => byte.toNat + 256 * value) 0

/-- `checked_add` and `checked_mul` of `usize`. -/
def checkedAdd (left right : Nat) : Option Nat :=
  if left + right < 2 ^ 64 then some (left + right) else none

def checkedMul (left right : Nat) : Option Nat :=
  if left * right < 2 ^ 64 then some (left * right) else none

/-- `chunks_exact`. -/
def chunksExact (size : Nat) (bytes : List UInt8) : List (List UInt8) :=
  (List.range (bytes.length / size)).map fun index => (bytes.drop (index * size)).take size

/-- `u16_at`. -/
def u16At (bytes : List UInt8) (offset : Nat) : Checked Nat := do
  let low ← byteAt bytes offset
  let high ← byteAt bytes (offset + 1)
  return fromLittleEndian [low, high]

def u32At (bytes : List UInt8) (offset : Nat) : Checked Nat := do
  let four ← slice bytes offset (offset + 4)
  return fromLittleEndian four

/-- `u64_at`. -/
def u64At (bytes : List UInt8) (offset : Nat) : Checked Nat := do
  let eight ← slice bytes offset (offset + 8)
  return fromLittleEndian eight

/-- The loop over the entries of a dynamic segment. -/
def checkEntries : List (List UInt8) → Checked Unit
  | [] => return
  | entry :: rest => do
    let tag ← u64At entry 0
    if tag = 0 then return
    else
      ensure (tag != 1) "binary requires a shared library"
      checkEntries rest

/-- The loop's body for one program header. -/
def checkHeader (bytes header : List UInt8) : Checked Unit := do
  let kind ← u32At header 0
  ensure (kind != 3) "binary contains a dynamic interpreter"
  if kind = 2 then
    let offset ← u64At header 8
    let length ← u64At header 32
    let stop ← context (checkedAdd offset length) "ELF dynamic segment overflow"
    ensure (stop ≤ bytes.length && length % 16 == 0) "ELF dynamic segment is truncated"
    let segment ← slice bytes offset stop
    checkEntries (chunksExact 16 segment)

/-- `verify_static_elf`. -/
def verifyStaticElf (bytes : List UInt8) : Checked Unit := do
  ensure (64 ≤ bytes.length) "binary is not a little-endian ELF64 executable"
  let magic ← slice bytes 0 4
  let bits ← byteAt bytes 4
  let order ← byteAt bytes 5
  ensure (magic == [0x7f, 0x45, 0x4c, 0x46] && bits == 2 && order == 1)
    "binary is not a little-endian ELF64 executable"
  let kind ← u16At bytes 16
  let machine ← u16At bytes 18
  let headerSize ← u16At bytes 52
  ensure ((kind == 2 || kind == 3) && machine == 62 && headerSize == 64)
    "ELF target is not Linux x86_64"
  let start ← u64At bytes 32
  let size ← u16At bytes 54
  let count ← u16At bytes 56
  ensure (size == 56 && 0 < count && count ≤ 1024) "unsupported ELF program table"
  let length ← context (checkedMul size count) "ELF program table overflow"
  let stop ← context (checkedAdd start length) "ELF program table overflow"
  ensure (stop ≤ bytes.length) "ELF program table is truncated"
  let table ← slice bytes start stop
  (chunksExact size table).forM (checkHeader bytes)

end Idk.Package
