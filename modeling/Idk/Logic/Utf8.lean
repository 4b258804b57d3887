import Mathlib.Data.List.Basic

/-!
# Decoding UTF-8 that may be broken

A decoder that never fails: each longest part that could begin a character and does not become
one is shown as one replacement character.  Where the bytes end inside a character is told apart
from where they are wrong.
-/

namespace Idk.Logic.Utf8

/-- The byte can only continue a character. -/
def continues (byte : UInt8) : Bool := byte &&& 0xc0 == 0x80

def between (low high byte : UInt8) : Bool := low ≤ byte && byte ≤ high

/-- What the bytes after a first byte have to be; `none` where no character starts with it. -/
def followers (byte : UInt8) : Option (List (UInt8 → Bool)) :=
  if byte ≤ 0x7f then some []
  else if byte ≤ 0xc1 then none
  else if byte ≤ 0xdf then some [continues]
  else if byte = 0xe0 then some [between 0xa0 0xbf, continues]
  else if byte = 0xed then some [between 0x80 0x9f, continues]
  else if byte ≤ 0xef then some [continues, continues]
  else if byte = 0xf0 then some [between 0x90 0xbf, continues, continues]
  else if byte ≤ 0xf3 then some [continues, continues, continues]
  else if byte = 0xf4 then some [between 0x80 0x8f, continues, continues]
  else none

/-- How a sequence ends. -/
inductive Ending where
  /-- The character is complete. -/
  | whole
  /-- The bytes end first. -/
  | cut
  /-- The next byte is not what has to follow. -/
  | broken
  deriving DecidableEq, Repr

/-- A sequence, by the number of bytes after its first. -/
structure Sequence where
  ending : Ending
  more : Nat
  deriving DecidableEq, Repr

def Sequence.longer (sequence : Sequence) : Sequence := { sequence with more := sequence.more + 1 }

/-- As many of the bytes as are what is expected. -/
def follow : List (UInt8 → Bool) → List UInt8 → Sequence
  | [], _ => ⟨.whole, 0⟩
  | _ :: _, [] => ⟨.cut, 0⟩
  | check :: checks, byte :: rest =>
    if check byte then (follow checks rest).longer else ⟨.broken, 0⟩

/-- The sequence that starts with a byte. -/
def sequence (byte : UInt8) (rest : List UInt8) : Sequence :=
  match followers byte with
  | none => ⟨.broken, 0⟩
  | some checks => follow checks rest

/-- What is shown of bytes that are no character. -/
def replacement : Char := '\uFFFD'

/-- The character that a whole sequence encodes. -/
def decodeChar (bytes : List UInt8) : Char :=
  (bytes.toByteArray.utf8DecodeChar? 0).getD replacement

/-- The character shown for the sequence that starts with a byte. -/
def shown (byte : UInt8) (rest : List UInt8) : Char :=
  if (sequence byte rest).ending = .whole then
    decodeChar (byte :: rest.take (sequence byte rest).more)
  else replacement

/-- `skip` bytes belong to a sequence that is shown already. -/
def lossyFrom : Nat → List UInt8 → List Char
  | _, [] => []
  | skip + 1, _ :: rest => lossyFrom skip rest
  | 0, byte :: rest => shown byte rest :: lossyFrom (sequence byte rest).more rest

/-- The characters of the bytes. -/
def lossy (bytes : List UInt8) : List Char := lossyFrom 0 bytes

/-- The place from `place` on where the bytes end inside a character, when all before it is
    valid. -/
def cutFrom : Nat → Nat → List UInt8 → Option Nat
  | _, _, [] => none
  | skip + 1, place, _ :: rest => cutFrom skip (place + 1) rest
  | 0, place, byte :: rest =>
    match (sequence byte rest).ending with
    | .whole => cutFrom (sequence byte rest).more (place + 1) rest
    | .cut => some place
    | .broken => none

/-- Where valid bytes end inside a character. -/
def cutAt (bytes : List UInt8) : Option Nat := cutFrom 0 0 bytes

/-! ## Bytes -/

theorem continues_table : ∀ value : Fin 256, continues (.ofFin value) =
    decide ((0x80 : UInt8) ≤ .ofFin value ∧ UInt8.ofFin value ≤ 0xbf) := by
  decide +kernel

theorem continues_iff {byte : UInt8} :
    continues byte = true ↔ 0x80 ≤ byte.toNat ∧ byte.toNat ≤ 0xbf := by
  have same := continues_table byte.toFin
  rw [UInt8.ofFin_toFin] at same
  simp [same, UInt8.le_iff_toNat_le]

theorem between_iff {low high byte : UInt8} :
    between low high byte = true ↔ low.toNat ≤ byte.toNat ∧ byte.toNat ≤ high.toNat := by
  simp [between, UInt8.le_iff_toNat_le]

/-- `followers` by the number of the byte. -/
theorem followers_eq (byte : UInt8) : followers byte =
    if byte.toNat ≤ 0x7f then some []
    else if byte.toNat ≤ 0xc1 then none
    else if byte.toNat ≤ 0xdf then some [continues]
    else if byte.toNat = 0xe0 then some [between 0xa0 0xbf, continues]
    else if byte.toNat = 0xed then some [between 0x80 0x9f, continues]
    else if byte.toNat ≤ 0xef then some [continues, continues]
    else if byte.toNat = 0xf0 then some [between 0x90 0xbf, continues, continues]
    else if byte.toNat ≤ 0xf3 then some [continues, continues, continues]
    else if byte.toNat = 0xf4 then some [between 0x80 0x8f, continues, continues]
    else none := by
  simp only [followers, UInt8.le_iff_toNat_le, ← UInt8.toNat_inj]
  rfl

/-- No character starts with a byte that continues one. -/
theorem followers_continues {byte : UInt8} (stray : continues byte = true) :
    followers byte = none := by
  have range := continues_iff.mp stray
  rw [followers_eq, if_neg (by omega), if_pos (by omega)]

/-- Only continuing bytes follow a first byte. -/
theorem followers_checks {byte other : UInt8} {checks : List (UInt8 → Bool)}
    {check : UInt8 → Bool} (first : followers byte = some checks) (member : check ∈ checks)
    (passes : check other = true) : continues other = true := by
  have inside {low high : UInt8} (least : 0x80 ≤ low.toNat) (most : high.toNat ≤ 0xbf)
      (inside : between low high other = true) : continues other = true := by
    have range := between_iff.mp inside
    exact continues_iff.mpr (by omega)
  rw [followers_eq] at first
  split_ifs at first <;> cases first <;>
    simp only [List.mem_cons, List.not_mem_nil, or_false, or_self] at member
  -- Either a range within `continues`, or `continues` itself.
  all_goals first
    | exact member ▸ passes
    | (obtain rfl | rfl := member
       · exact inside (by decide) (by decide) passes
       · exact passes)

/-! ## Sequences -/

/-- Where a sequence stops it has passed its checks so far. -/
theorem follow_more_le (checks : List (UInt8 → Bool)) (rest : List UInt8) :
    (follow checks rest).more ≤ rest.length := by
  induction checks generalizing rest with
  | nil => exact Nat.zero_le _
  | cons check checks inductionHypothesis =>
    cases rest with
    | nil => exact Nat.zero_le _
    | cons byte rest =>
      simp only [follow]
      split
      · exact Nat.succ_le_succ (inductionHypothesis rest)
      · exact Nat.zero_le _

theorem sequence_more_le (byte : UInt8) (rest : List UInt8) :
    (sequence byte rest).more ≤ rest.length := by
  unfold sequence
  cases followers byte with
  | none => exact Nat.zero_le _
  | some checks => exact follow_more_le checks rest

/-- Bytes that meet the checks, whatever comes after them. -/
theorem follow_whole {checks : List (UInt8 → Bool)} {more : List UInt8}
    (meets : List.Forall₂ (fun check byte => check byte = true) checks more) (rest : List UInt8) :
    follow checks (more ++ rest) = ⟨.whole, more.length⟩ := by
  induction meets with
  | nil => rfl
  | cons passes _ inductionHypothesis =>
    simp only [List.cons_append, follow, passes, if_true, inductionHypothesis]
    rfl

theorem met_by {checks : List (UInt8 → Bool)} {more : List UInt8} {byte : UInt8}
    (meets : List.Forall₂ (fun check byte => check byte = true) checks more)
    (member : byte ∈ more) : ∃ check ∈ checks, check byte = true := by
  induction meets with
  | nil => cases member
  | cons passes _ inductionHypothesis =>
    obtain rfl | later := List.mem_cons.mp member
    · exact ⟨_, List.mem_cons_self, passes⟩
    · obtain ⟨check, there, met⟩ := inductionHypothesis later
      exact ⟨check, List.mem_cons_of_mem _ there, met⟩

/-- Bytes that meet the checks so far and end too early. -/
theorem follow_cut {checks : List (UInt8 → Bool)} {more left : List UInt8} (some_ : left ≠ [])
    (meets : List.Forall₂ (fun check byte => check byte = true) checks (more ++ left)) :
    follow checks more = ⟨.cut, more.length⟩ := by
  induction more generalizing checks with
  | nil =>
    cases meets with
    | nil => exact absurd rfl some_
    | cons => rfl
  | cons byte more inductionHypothesis =>
    cases meets with
    | cons passes meets =>
      simp only [follow, passes, if_true, inductionHypothesis meets]
      rfl

/-- Bytes behind a sequence that cannot continue it change neither its length nor whether it
    is whole. -/
theorem follow_append {checks : List (UInt8 → Bool)} {behind : List UInt8}
    (apart : ∀ byte ∈ behind.head?, ∀ check ∈ checks, check byte = false) (rest : List UInt8) :
    (follow checks (rest ++ behind)).more = (follow checks rest).more ∧
      ((follow checks (rest ++ behind)).ending = .whole ↔ (follow checks rest).ending = .whole) := by
  induction checks generalizing rest with
  | nil => exact ⟨rfl, Iff.rfl⟩
  | cons check checks inductionHypothesis =>
    cases rest with
    | nil =>
      cases behind with
      | nil => exact ⟨rfl, Iff.rfl⟩
      | cons byte behind =>
        have fails := apart byte rfl check List.mem_cons_self
        simp [follow, fails]
    | cons byte rest =>
      have others := inductionHypothesis
        (fun next same other member => apart next same other (List.mem_cons_of_mem _ member)) rest
      simp only [List.cons_append, follow]
      split
      · simpa [Sequence.longer] using others
      · exact ⟨rfl, Iff.rfl⟩

/-- The bytes do not go on with a character that began before them. -/
def Fresh (bytes : List UInt8) : Prop := ∀ byte ∈ bytes.head?, continues byte = false

theorem sequence_append {behind : List UInt8} (fresh : Fresh behind) (byte : UInt8)
    (rest : List UInt8) :
    (sequence byte (rest ++ behind)).more = (sequence byte rest).more ∧
      ((sequence byte (rest ++ behind)).ending = .whole ↔
        (sequence byte rest).ending = .whole) := by
  unfold sequence
  cases first : followers byte with
  | none => exact ⟨rfl, Iff.rfl⟩
  | some checks =>
    refine follow_append (fun next same check member => ?_) rest
    by_contra passes
    rw [Bool.not_eq_false] at passes
    exact absurd (followers_checks first member passes) (by simp [fresh next same])

theorem shown_append {behind : List UInt8} (fresh : Fresh behind) (byte : UInt8)
    (rest : List UInt8) : shown byte (rest ++ behind) = shown byte rest := by
  obtain ⟨more, whole⟩ := sequence_append fresh byte rest
  unfold shown
  rw [more, List.take_append_of_le_length (sequence_more_le byte rest)]
  simp only [whole]

/-! ## The characters of bytes -/

theorem lossyFrom_append {behind : List UInt8} (fresh : Fresh behind) {skip : Nat}
    {bytes : List UInt8} (inside : skip ≤ bytes.length) :
    lossyFrom skip (bytes ++ behind) = lossyFrom skip bytes ++ lossy behind := by
  induction bytes generalizing skip with
  | nil =>
    obtain rfl : skip = 0 := Nat.le_zero.mp inside
    rfl
  | cons byte rest inductionHypothesis =>
    cases skip with
    | succ skip => exact inductionHypothesis (Nat.le_of_succ_le_succ inside)
    | zero =>
      simp only [List.cons_append, lossyFrom, shown_append fresh, (sequence_append fresh byte rest).1,
        inductionHypothesis (sequence_more_le byte rest)]

/-- Bytes are shown apart from what does not go on with them. -/
theorem lossy_append {behind : List UInt8} (fresh : Fresh behind) (bytes : List UInt8) :
    lossy (bytes ++ behind) = lossy bytes ++ lossy behind :=
  lossyFrom_append fresh (Nat.zero_le _)

theorem lossyFrom_skip (gone rest : List UInt8) :
    lossyFrom gone.length (gone ++ rest) = lossy rest := by
  induction gone with
  | nil => rfl
  | cons byte gone inductionHypothesis => exact inductionHypothesis

theorem sequence_stray {byte : UInt8} (stray : continues byte = true) (rest : List UInt8) :
    sequence byte rest = ⟨.broken, 0⟩ := by
  rw [sequence, followers_continues stray]

/-- Each byte that continues nothing is shown as one replacement character. -/
theorem lossy_strays {strays : List UInt8} (all : ∀ byte ∈ strays, continues byte = true)
    (rest : List UInt8) :
    lossy (strays ++ rest) = List.replicate strays.length replacement ++ lossy rest := by
  induction strays with
  | nil => rfl
  | cons byte strays inductionHypothesis =>
    have stray := sequence_stray (all byte List.mem_cons_self) (strays ++ rest)
    have others := inductionHypothesis fun other member => all other (List.mem_cons_of_mem _ member)
    simp only [lossy] at others ⊢
    simp [lossyFrom, shown, stray, others, List.replicate_succ]

/-! ## Encoded characters -/

theorem followers_two {byte : UInt8} (low : 0xc2 ≤ byte.toNat) (high : byte.toNat ≤ 0xdf) :
    followers byte = some [continues] := by
  rw [followers_eq, if_neg (by omega), if_neg (by omega), if_pos high]

theorem followers_three {byte other : UInt8} (low : 0xe0 ≤ byte.toNat) (high : byte.toNat ≤ 0xef)
    (inside : 0x80 ≤ other.toNat ∧ other.toNat ≤ 0xbf)
    (least : byte.toNat = 0xe0 → 0xa0 ≤ other.toNat)
    (most : byte.toNat = 0xed → other.toNat ≤ 0x9f) :
    ∃ check, followers byte = some [check, continues] ∧ check other = true := by
  rw [followers_eq, if_neg (by omega), if_neg (by omega), if_neg (by omega)]
  by_cases lowest : byte.toNat = 0xe0
  · exact ⟨_, if_pos lowest, between_iff.mpr ⟨least lowest, inside.2⟩⟩
  · rw [if_neg lowest]
    by_cases surrogate : byte.toNat = 0xed
    · exact ⟨_, if_pos surrogate, between_iff.mpr ⟨inside.1, most surrogate⟩⟩
    · rw [if_neg surrogate, if_pos high]
      exact ⟨_, rfl, continues_iff.mpr inside⟩

theorem followers_four {byte other : UInt8} (low : 0xf0 ≤ byte.toNat) (high : byte.toNat ≤ 0xf4)
    (inside : 0x80 ≤ other.toNat ∧ other.toNat ≤ 0xbf)
    (least : byte.toNat = 0xf0 → 0x90 ≤ other.toNat)
    (most : byte.toNat = 0xf4 → other.toNat ≤ 0x8f) :
    ∃ check, followers byte = some [check, continues, continues] ∧ check other = true := by
  rw [followers_eq, if_neg (by omega), if_neg (by omega), if_neg (by omega), if_neg (by omega),
    if_neg (by omega), if_neg (by omega)]
  by_cases lowest : byte.toNat = 0xf0
  · exact ⟨_, if_pos lowest, between_iff.mpr ⟨least lowest, inside.2⟩⟩
  · rw [if_neg lowest]
    by_cases highest : byte.toNat = 0xf4
    · rw [if_neg (by omega), if_pos highest]
      exact ⟨_, rfl, between_iff.mpr ⟨inside.1, most highest⟩⟩
    · rw [if_pos (by omega)]
      exact ⟨_, rfl, continues_iff.mpr inside⟩

/-- The bytes of a character: a first byte, and what it asks to follow. -/
theorem encoded_follows (char : Char) :
    ∃ byte more checks, String.utf8EncodeChar char = byte :: more ∧
      followers byte = some checks ∧
      List.Forall₂ (fun check byte => check byte = true) checks more := by
  have valid := char.valid
  have number {value : Nat} (small : value < 256) : (UInt8.ofNat value).toNat = value :=
    UInt8.toNat_ofNat_of_lt small
  have last (value : Nat) : continues (UInt8.ofNat (value % 64 + 128)) = true := by
    have small := Nat.mod_lt value (show 64 > 0 by omega)
    rw [continues_iff, number (by omega)]
    omega
  simp only [UInt32.isValidChar, Nat.isValidChar] at valid
  unfold String.utf8EncodeChar
  generalize char.val.toNat = value at valid
  by_cases one : value ≤ 127
  · refine ⟨_, _, [], if_pos one, ?_, .nil⟩
    rw [followers_eq, number (by omega), if_pos one]
  by_cases two : value ≤ 2047
  · refine ⟨_, _, [continues], (if_neg one).trans (if_pos two), followers_two ?_ ?_, ?_⟩
    · rw [number (by omega)]
      omega
    · rw [number (by omega)]
      omega
    · exact .cons (last _) .nil
  by_cases three : value ≤ 65535
  · have first := number (show value / 4096 % 16 + 224 < 256 by omega)
    have second := number (show value / 64 % 64 + 128 < 256 by omega)
    obtain ⟨check, follows, passes⟩ := @followers_three (UInt8.ofNat (value / 4096 % 16 + 224))
      (UInt8.ofNat (value / 64 % 64 + 128)) (by omega) (by omega) (by omega) (by omega) (by omega)
    exact ⟨_, _, _, (if_neg one).trans ((if_neg two).trans (if_pos three)), follows,
      .cons passes (.cons (last _) .nil)⟩
  · have first := number (show value / 262144 % 8 + 240 < 256 by omega)
    have second := number (show value / 4096 % 64 + 128 < 256 by omega)
    obtain ⟨check, follows, passes⟩ := @followers_four (UInt8.ofNat (value / 262144 % 8 + 240))
      (UInt8.ofNat (value / 4096 % 64 + 128)) (by omega) (by omega) (by omega) (by omega) (by omega)
    exact ⟨_, _, _, (if_neg one).trans ((if_neg two).trans (if_neg three)), follows,
      .cons passes (.cons (last _) (.cons (last _) .nil))⟩

theorem decodeChar_encoded (char : Char) : decodeChar (String.utf8EncodeChar char) = char := by
  have decoded := @ByteArray.utf8DecodeChar?_utf8EncodeChar_append .empty char
  rw [ByteArray.append_empty] at decoded
  rw [decodeChar, decoded]
  rfl

/-- The first byte of a character continues none, all others do. -/
theorem encoded_continues {char : Char} {byte : UInt8} {more : List UInt8}
    (encoded : String.utf8EncodeChar char = byte :: more) :
    continues byte = false ∧ ∀ other ∈ more, continues other = true := by
  obtain ⟨first, others, checks, same, follows, meets⟩ := encoded_follows char
  obtain ⟨rfl, rfl⟩ := List.cons.inj (encoded.symm.trans same)
  refine ⟨?_, fun other member => ?_⟩
  · by_contra stray
    rw [Bool.not_eq_false] at stray
    simp [followers_continues stray] at follows
  · obtain ⟨check, there, passes⟩ := met_by meets member
    exact followers_checks follows there passes

/-- The sequence of a character, whatever comes after it. -/
theorem sequence_encoded {char : Char} {byte : UInt8} {more : List UInt8}
    (encoded : String.utf8EncodeChar char = byte :: more) (rest : List UInt8) :
    sequence byte (more ++ rest) = ⟨.whole, more.length⟩ := by
  obtain ⟨first, others, checks, same, follows, meets⟩ := encoded_follows char
  obtain ⟨rfl, rfl⟩ := List.cons.inj (encoded.symm.trans same)
  rw [sequence, follows]
  exact follow_whole meets rest

/-- The first bytes of a character are cut off. -/
theorem sequence_cut {char : Char} {byte : UInt8} {more left : List UInt8} (some_ : left ≠ [])
    (encoded : String.utf8EncodeChar char = byte :: (more ++ left)) :
    sequence byte more = ⟨.cut, more.length⟩ := by
  obtain ⟨first, others, checks, same, follows, meets⟩ := encoded_follows char
  obtain ⟨rfl, rfl⟩ := List.cons.inj (encoded.symm.trans same)
  rw [sequence, follows]
  exact follow_cut some_ meets

theorem lossy_encoded (char : Char) (rest : List UInt8) :
    lossy (String.utf8EncodeChar char ++ rest) = char :: lossy rest := by
  obtain ⟨byte, more, checks, encoded, follows, meets⟩ := encoded_follows char
  have whole := sequence_encoded encoded rest
  rw [encoded, List.cons_append, lossy, lossyFrom, shown, whole, if_pos rfl,
    List.take_left, lossyFrom_skip, ← encoded, decodeChar_encoded]

/-- The bytes of a text are shown as its characters. -/
theorem lossy_text (text : List Char) : lossy (text.flatMap String.utf8EncodeChar) = text := by
  induction text with
  | nil => rfl
  | cons char text inductionHypothesis =>
    rw [List.flatMap_cons, lossy_encoded, inductionHypothesis]

/-! ## Where bytes end inside a character -/

theorem cutFrom_skip (gone rest : List UInt8) (place : Nat) :
    cutFrom gone.length place (gone ++ rest) = cutFrom 0 (place + gone.length) rest := by
  induction gone generalizing place with
  | nil => rfl
  | cons byte gone inductionHypothesis =>
    rw [List.length_cons, List.cons_append, cutFrom, inductionHypothesis, Nat.add_assoc,
      Nat.add_comm 1]

theorem cutFrom_encoded (char : Char) (rest : List UInt8) (place : Nat) :
    cutFrom 0 place (String.utf8EncodeChar char ++ rest) =
      cutFrom 0 (place + (String.utf8EncodeChar char).length) rest := by
  obtain ⟨byte, more, checks, encoded, follows, meets⟩ := encoded_follows char
  simp only [encoded, List.cons_append, cutFrom, sequence_encoded encoded, cutFrom_skip,
    List.length_cons]
  congr 1
  omega

theorem cutAt_encoded (char : Char) : cutAt (String.utf8EncodeChar char) = none := by
  have whole := cutFrom_encoded char [] 0
  rw [List.append_nil] at whole
  rw [cutAt, whole, cutFrom]

theorem cutAt_cut {char : Char} {byte : UInt8} {more left : List UInt8} (some_ : left ≠ [])
    (encoded : String.utf8EncodeChar char = byte :: (more ++ left)) :
    cutAt (byte :: more) = some 0 := by
  rw [cutAt, cutFrom, sequence_cut some_ encoded]

theorem cutAt_stray {byte : UInt8} (stray : continues byte = true) (rest : List UInt8) :
    cutAt (byte :: rest) = none := by
  rw [cutAt, cutFrom, sequence_stray stray]

end Idk.Logic.Utf8
