import Idk.Verified.Run.ResultStore
import Idk.Run.Producer

/-!
# What a task reports fits into the ledger

A summary of the result document takes at most 8192 bytes whatever the document holds.
The summary of an event stream does too, unless the stream could not be retained: then
it carries the text of the storage error besides the last event, and there is room for
a thousand bytes of it.
-/

namespace Idk

open Idk.Logic
open Idk.Logic.Json (textWidth keyWidth charWidth intWidth boolWidth)

/-! ## Short texts -/

theorem mem_safe {value : String} {limit : Nat} {char : Char}
    (mem : char ∈ (safe value limit).toList) : 0x20 ≤ char.toNat := by
  rw [safe, String.toList_ofList] at mem
  have kept := List.mem_of_mem_take mem
  simp only [List.mem_filter, Bool.not_eq_true'] at kept
  exact visible_of_not_control kept.2

theorem length_safe (value : String) (limit : Nat) : (safe value limit).length ≤ limit := by
  rw [safe, String.length_ofList]
  exact List.length_take_le _ _

theorem textWidth_safe (value : String) (limit : Nat) :
    textWidth (safe value limit) ≤ 4 * limit := by
  have wide := (Json.textWidth_visible (safe value limit) fun _ => mem_safe).2
  have short := length_safe value limit
  omega

theorem textWidth_hex {text : String} (hex : text.toList.all isAsciiHexdigit = true) :
    textWidth text = text.utf8ByteSize := by
  refine Json.textWidth_plain fun char mem => ?_
  have digit := List.all_eq_true.mp hex char mem
  simp only [isAsciiHexdigit, Bool.or_eq_true, Bool.and_eq_true, decide_eq_true_eq,
    Char.le_def, UInt32.le_iff_toNat_le] at digit
  have code : char.toNat = char.val.toNat := rfl
  refine ⟨?_, ?_, ?_⟩
  · rintro rfl
    revert digit
    decide
  · rintro rfl
    revert digit
    decide
  · have zero : ('0' : Char).val.toNat = 48 := rfl
    have lower : ('a' : Char).val.toNat = 97 := rfl
    have upper : ('A' : Char).val.toNat = 65 := rfl
    omega

theorem textWidth_digest {value : String} (valid : digest value = .ok ()) :
    textWidth value = 64 := by
  simp only [digest, ensure_eq_ok, Bool.and_eq_true, beq_iff_eq] at valid
  rw [textWidth_hex valid.2, valid.1]

/-! ## Faults in a line -/

/-- Whatever goes wrong is told in few bytes. -/
def Terse {α : Type} (result : Result α) : Prop :=
  ∀ error, result = .error error → textWidth error ≤ 256

theorem Terse.pure {α : Type} (value : α) : Terse (Pure.pure value : Result α) := by
  intro error failed
  cases failed

theorem Terse.bind {α β : Type} {first : Result α} {next : α → Result β} (start : Terse first)
    (rest : ∀ value, first = .ok value → Terse (next value)) : Terse (first >>= next) := by
  cases first with
  | ok value => exact rest value rfl
  | error error => exact fun failed same => start failed (by simpa [Bind.bind, Except.bind] using same)

theorem Terse.ensure {condition : Bool} {message : String} (short : textWidth message ≤ 256) :
    Terse (Idk.ensure condition message) := by
  cases condition with
  | true =>
    intro error failed
    cases failed
  | false =>
    intro error failed
    cases failed
    exact short

theorem Terse.context {α : Type} {value : Option α} {message : String}
    (short : textWidth message ≤ 256) : Terse (Idk.context value message) := by
  cases value with
  | some value =>
    intro error failed
    cases failed
  | none =>
    intro error failed
    cases failed
    exact short

theorem asNat_lt {value : Json} {found : Nat} (same : value.asNat = some found) :
    found < 2 ^ 64 := by
  cases value with
  | num number =>
    simp only [Json.asNat, Option.ite_none_right_eq_some, Option.some.injEq] at same
    omega
  | _ => cases same

theorem width_state (state : EventState) : state.toJson.width ≤ 16 := by
  cases state <;> decide

theorem width_body {body : BodyReference} {limit digits : Nat} (run : textWidth body.runId ≤ 45)
    (hash : digest body.sha256 = .ok ()) (some : 0 < digits) (small : limit < 10 ^ digits)
    (bytes : body.bytes ≤ limit) : body.toJson.width ≤ 144 + digits := by
  have sha := textWidth_digest hash
  have number := Json.intWidth_le digits some (lt_of_le_of_lt bytes small)
  simp [BodyReference.toJson, Json.width, Json.widthFields, Json.nat, keyWidth, charWidth,
    Char.utf8Size]
  omega

/-- What the ledger demands of a result of this run. -/
structure StructuredResult.Admitted (document : String → Json) (runId : String)
    (result : StructuredResult) : Prop where
  inline : (result matches .available ..) = false
  body : ∀ body, result.body = some body →
    body.runId = runId ∧ body.bytes ≤ maxResultBytes ∧ digest body.sha256 = .ok ()
  width : (result.toJson document).width ≤ 8192

/-- The reference that `put` returns for a result. -/
structure BodyReference.Stored (runId : String) (limit : Nat) (body : BodyReference) : Prop where
  owner : body.runId = runId
  run : textWidth runId ≤ 45
  bytes : body.bytes ≤ limit
  hash : digest body.sha256 = .ok ()

theorem BodyReference.Stored.width {runId : String} {limit : Nat} {body : BodyReference}
    (stored : body.Stored runId limit) (small : limit < 10 ^ 8) : body.toJson.width ≤ 152 :=
  width_body (stored.owner ▸ stored.run) stored.hash (by decide) small stored.bytes

theorem width_error {error : Option String} {limit : Nat} (some : 2 ≤ limit)
    (short : ∀ text, error = .some text → textWidth text ≤ limit) :
    (Json.optional error .str).width ≤ limit + 2 := Json.width_optional_text some short

/-- The first character of four bytes. -/
def wide : Char := Char.ofNat 0x10000

def repeated (count : Nat) (char : Char) : String := String.ofList (List.replicate count char)

/-- The bytes of an ASCII text. -/
def plain (text : String) : List UInt8 := text.toList.map fun char => char.toNat.toUInt8

def times (count : Nat) (text : String) : List UInt8 :=
  (List.replicate count (plain text)).flatten

end Idk
