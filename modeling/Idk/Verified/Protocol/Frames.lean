import Idk.Protocol.Frames
import Mathlib.Data.List.Basic

/-!
# What arrives on a byte stream

`Frames values bytes`: the bytes are the frames of the values.  Writers append frames, and a
reader takes the first frame or fails, however the turns split and interrupt its calls.

**Main result:** `frame_transport`: what is read of a stream, or of a part of it up to a cut,
are the messages written, in their order, each read from its whole frame.
-/

namespace Idk.Protocol

variable {α : Type} {json : Json α}

/-! ## Turns -/

/-- A turn at which the transport neither fails nor ends. -/
def Turn.fair : Turn → Bool
  | .interrupted => true
  | .moves _ => true
  | _ => false

def Turn.moving : Turn → Bool
  | .moves _ => true
  | _ => false

/-- No turn fails, and enough of them transfer something. -/
structure Fair (enough : Nat) (turns : List Turn) : Prop where
  fair : ∀ turn ∈ turns, turn.fair = true
  enough : enough ≤ turns.countP Turn.moving

section Loops

variable {loop : Loop} {turns : List Turn} {bytes : List UInt8} {wanted : Nat}

theorem Fair.rest {enough : Nat} {turn : Turn} (fair : Fair enough (turn :: turns)) :
    Fair (enough - 1) turns where
  fair := fun other member => fair.fair other (List.mem_cons_of_mem _ member)
  enough := by
    have count := fair.enough
    rw [List.countP_cons] at count
    split at count
    · omega
    · omega

theorem Fair.interrupted {enough : Nat} (fair : Fair enough (.interrupted :: turns)) :
    Fair enough turns where
  fair := fair.rest.fair
  enough := by simpa [Turn.moving] using fair.enough

theorem Fair.less {enough fewer : Nat} (fair : Fair enough turns) (less : fewer ≤ enough) :
    Fair fewer turns :=
  ⟨fair.fair, Nat.le_trans less fair.enough⟩

/-- A filled buffer holds the next bytes of the stream. -/
theorem readLoop_ok {got all : List UInt8} {link : Link}
    (filled : readLoop loop turns bytes wanted got = some (.ok (all, link))) :
    ∃ next, all = got ++ next ∧ bytes = next ++ link.bytes ∧ next.length = wanted := by
  induction turns generalizing bytes wanted got with
  | nil =>
    cases wanted with
    | zero =>
      cases filled
      exact ⟨[], by simp, rfl, rfl⟩
    | succ wanted => cases filled
  | cons turn turns inductionHypothesis =>
    cases wanted with
    | zero =>
      cases filled
      exact ⟨[], by simp, rfl, rfl⟩
    | succ wanted =>
      cases turn with
      | expired =>
        simp only [readLoop] at filled
        split at filled
        · cases filled
        · exact inductionHypothesis filled
      | interrupted => exact inductionHypothesis filled
      | failed error => cases filled
      | closed => cases filled
      | moves more =>
        simp only [readLoop] at filled
        split at filled
        · cases filled
        · obtain ⟨next, rfl, rest, length⟩ := inductionHypothesis filled
          refine ⟨bytes.take _ ++ next, List.append_assoc _ _ _, ?_, ?_⟩
          · rw [List.append_assoc, ← rest, List.take_append_drop]
          · rw [List.length_append, List.length_take, length]
            omega

/-- A fair transport fills a buffer from a stream that is long enough. -/
theorem readLoop_fair {got : List UInt8} {others : Nat} (fair : Fair (wanted + others) turns)
    (long : wanted ≤ bytes.length) :
    ∃ link, readLoop loop turns bytes wanted got = some (.ok (got ++ bytes.take wanted, link)) ∧
      link.bytes = bytes.drop wanted ∧ Fair others link.turns := by
  induction turns generalizing bytes wanted got with
  | nil =>
    have none_ : wanted + others ≤ 0 := by simpa using fair.enough
    obtain rfl : wanted = 0 := by omega
    exact ⟨⟨bytes, []⟩, by simp [readLoop], rfl, fair.less (by omega)⟩
  | cons turn turns inductionHypothesis =>
    cases wanted with
    | zero => exact ⟨⟨bytes, turn :: turns⟩, by simp [readLoop], rfl, fair.less (by omega)⟩
    | succ wanted =>
      have here := fair.fair turn List.mem_cons_self
      cases turn with
      | expired => cases here
      | interrupted => exact inductionHypothesis fair.interrupted long
      | failed error => cases here
      | closed => cases here
      | moves more =>
        simp only [readLoop]
        have some_ : ¬ min (min (more + 1) (wanted + 1)) bytes.length = 0 := by omega
        rw [if_neg some_]
        generalize same : min (min (more + 1) (wanted + 1)) bytes.length = count at some_ ⊢
        have less : count ≤ wanted + 1 := by omega
        obtain ⟨link, filled, rest, left⟩ := @inductionHypothesis (bytes.drop count)
          (wanted + 1 - count) (got ++ bytes.take count)
          (fair.rest.less (by omega)) (by rw [List.length_drop]; omega)
        refine ⟨link, ?_, ?_, left⟩
        · rw [filled, List.append_assoc, ← List.take_add]
          simp only [Nat.add_sub_cancel' less]
        · rw [rest, List.drop_drop]
          congr 1
          omega

/-- What is sent completely is behind the bytes sent before. -/
theorem writeLoop_ok {rest : List UInt8} {link : Link}
    (sent : writeLoop loop turns bytes rest = some (.ok ((), link))) :
    link.bytes = bytes ++ rest := by
  induction turns generalizing bytes rest with
  | nil =>
    cases rest with
    | nil =>
      cases sent
      simp
    | cons byte rest => cases sent
  | cons turn turns inductionHypothesis =>
    cases rest with
    | nil =>
      cases sent
      simp
    | cons byte rest =>
      cases turn with
      | expired =>
        simp only [writeLoop] at sent
        split at sent
        · cases sent
        · exact inductionHypothesis sent
      | interrupted => exact inductionHypothesis sent
      | failed error => cases sent
      | closed => cases sent
      | moves more =>
        rw [inductionHypothesis sent, List.append_assoc, List.take_append_drop]

theorem writeLoop_fair {rest : List UInt8} {others : Nat} (fair : Fair (rest.length + others) turns) :
    ∃ link, writeLoop loop turns bytes rest = some (.ok ((), link)) ∧ Fair others link.turns := by
  induction turns generalizing bytes rest with
  | nil =>
    have none_ : rest.length + others ≤ 0 := by simpa using fair.enough
    obtain rfl : rest = [] := List.eq_nil_of_length_eq_zero (by omega)
    exact ⟨⟨bytes, []⟩, by simp [writeLoop], fair.less (by omega)⟩
  | cons turn turns inductionHypothesis =>
    cases rest with
    | nil => exact ⟨⟨bytes, turn :: turns⟩, by simp [writeLoop], fair.less (by omega)⟩
    | cons byte rest =>
      have here := fair.fair turn List.mem_cons_self
      cases turn with
      | expired => cases here
      | interrupted => exact inductionHypothesis fair.interrupted
      | failed error => cases here
      | closed => cases here
      | moves more =>
        refine inductionHypothesis (fair.rest.less ?_)
        rw [List.length_drop, List.length_cons]
        omega

end Loops

/-! ## Frames -/

/-- The bytes are the frames of these values, one behind the other. -/
inductive Frames (json : Json α) : List α → List UInt8 → Prop where
  | nil : Frames json [] []
  | cons {value : α} {body : List UInt8} {values : List α} {bytes : List UInt8}
      (encoded : json.encode value = .ok body) (some_ : 0 < body.length)
      (allowed : body.length ≤ maxMessage) (others : Frames json values bytes) :
      Frames json (value :: values) (toBeBytes body.length ++ (body ++ bytes))

/-- What the formats rely on: decoding inverts encoding, and no value is encoded by nothing. -/
structure Inverse (json : Json α) : Prop where
  decode : ∀ value bytes, json.encode value = .ok bytes → json.decode bytes = .ok value
  empty : ∀ value, json.decode [] ≠ .ok value

theorem Inverse.some (inverse : Inverse json) {value : α} {bytes : List UInt8}
    (encoded : json.encode value = .ok bytes) : 0 < bytes.length := by
  rw [List.length_pos_iff]
  rintro rfl
  exact inverse.empty value (inverse.decode value [] encoded)

theorem fromBeBytes_toBeBytes {size : Nat} (small : size < 2 ^ 32) :
    fromBeBytes (toBeBytes size) = size := by
  simp [fromBeBytes, toBeBytes]
  omega

/-- Every size that a writer lets pass is one that a reader accepts. -/
theorem frameSize_toBeBytes {size : Nat} (some_ : 0 < size) (allowed : size ≤ maxMessage) :
    frameSize (toBeBytes (size % 2 ^ 32)) = .ok size := by
  have small : size < 2 ^ 32 := Nat.lt_of_le_of_lt allowed (by decide)
  rw [frameSize, Nat.mod_eq_of_lt small, fromBeBytes_toBeBytes small]
  exact if_pos ⟨some_, allowed⟩

theorem frameSize_ok {header : List UInt8} {size : Nat} (accepted : frameSize header = .ok size) :
    size = fromBeBytes header := by
  unfold frameSize at accepted
  dsimp only at accepted
  split at accepted
  · cases accepted
    rfl
  · cases accepted

theorem Frames.append {first second : List α} {bytes others : List UInt8}
    (frames : Frames json first bytes) (more : Frames json second others) :
    Frames json (first ++ second) (bytes ++ others) := by
  induction frames with
  | nil => exact more
  | cons encoded some_ allowed _ inductionHypothesis =>
    rw [List.append_assoc, List.append_assoc]
    exact .cons encoded some_ allowed inductionHypothesis

/-! ## Operations -/

/-- The operation ends with this value and leaves the stream so. -/
def Returns {β : Type} (op : Transport β) (link : Link) (value : β) (last : Link) : Prop :=
  (op.run link).run = some (.ok (value, last))

section Operations

variable {β γ : Type} {link last : Link}

theorem returns_bind {first : Transport β} {next : β → Transport γ} {value : γ} :
    Returns (first >>= next) link value last ↔
      ∃ found middle, Returns first link found middle ∧ Returns (next found) middle value last := by
  simp only [Returns, StateT.run_bind, ExceptT.run_bind]
  rcases (first.run link).run with _ | error | ⟨found, middle⟩
  · simp
  · simp
  · simp

theorem returns_lift {result : Result β} {value : β} :
    Returns (liftM result) link value last ↔ result = .ok value ∧ last = link := by
  cases result with
  | error error =>
    constructor
    · intro returns
      cases returns
    · rintro ⟨same, -⟩
      cases same
  | ok found =>
    constructor
    · intro returns
      cases returns
      exact ⟨rfl, rfl⟩
    · rintro ⟨same, rfl⟩
      cases same
      rfl

theorem returns_fill {reader : Reader} {size : Nat} {all : List UInt8}
    (returns : Returns (reader.fill size) link all last) :
    link.bytes = all ++ last.bytes ∧ all.length = size := by
  obtain ⟨next, rfl, rest, length⟩ := readLoop_ok returns
  exact ⟨rest, length⟩

theorem returns_send {writer : Writer} {bytes : List UInt8} {done : Unit}
    (returns : Returns (writer.send bytes) link done last) : last.bytes = link.bytes ++ bytes :=
  writeLoop_ok returns

/-- A read message stands at the head of the stream, in a whole frame. -/
theorem readFrame_returns {reader : Reader} {value : α}
    (returns : Returns (readFrame json reader) link value last) :
    ∃ header body, link.bytes = header ++ (body ++ last.bytes) ∧ header.length = 4 ∧
      body.length = fromBeBytes header ∧ json.decode body = .ok value := by
  obtain ⟨header, afterHeader, headed, second⟩ := returns_bind.mp returns
  obtain ⟨size, same, sized, third⟩ := returns_bind.mp second
  obtain ⟨body, afterBody, filled, ends⟩ := returns_bind.mp third
  obtain ⟨accepted, rfl⟩ := returns_lift.mp sized
  obtain ⟨decoded, rfl⟩ := returns_lift.mp ends
  obtain ⟨start, four⟩ := returns_fill headed
  obtain ⟨rest, length⟩ := returns_fill filled
  refine ⟨header, body, by rw [start, rest], four, length.trans (frameSize_ok accepted), ?_⟩
  cases known : json.decode body with
  | error error =>
    rw [known] at decoded
    cases decoded
  | ok found =>
    rw [known] at decoded
    cases decoded
    rfl

/-- A written message is a frame behind what was written. -/
theorem writeFrame_returns (inverse : Inverse json) {writer : Writer} {value : α} {done : Unit}
    (returns : Returns (writeFrame json writer value) link done last) :
    ∃ frame, last.bytes = link.bytes ++ frame ∧ Frames json [value] frame := by
  obtain ⟨body, _, coded, second⟩ := returns_bind.mp returns
  obtain ⟨_, _, checked, third⟩ := returns_bind.mp second
  obtain ⟨_, middle, headed, fourth⟩ := returns_bind.mp third
  obtain ⟨_, afterBody, sent, ends⟩ := returns_bind.mp fourth
  obtain ⟨encoded, rfl⟩ := returns_lift.mp coded
  obtain ⟨allowed, rfl⟩ := returns_lift.mp checked
  obtain ⟨-, rfl⟩ := returns_lift.mp ends
  have allowed : body.length ≤ maxMessage := by simpa using allowed
  have small : body.length < 2 ^ 32 := Nat.lt_of_le_of_lt allowed (by decide)
  refine ⟨_, ?_, .cons encoded (inverse.some encoded) allowed .nil⟩
  rw [returns_send sent, returns_send headed, Nat.mod_eq_of_lt small]
  simp

theorem writeMany_returns (inverse : Inverse json) {messages : List (Writer × α)} {done : Unit}
    (returns : Returns (writeMany json messages) link done last) :
    ∃ bytes, last.bytes = link.bytes ++ bytes ∧ Frames json (messages.map Prod.snd) bytes := by
  induction messages generalizing link with
  | nil =>
    cases returns
    exact ⟨[], by simp, .nil⟩
  | cons message rest inductionHypothesis =>
    obtain ⟨_, middle, first, returns⟩ := returns_bind.mp returns
    obtain ⟨frame, here, framed⟩ := writeFrame_returns inverse first
    obtain ⟨bytes, there, others⟩ := inductionHypothesis returns
    exact ⟨frame ++ bytes, by rw [there, here, List.append_assoc], framed.append others⟩

theorem fill_fair (reader : Reader) {size others : Nat} (fair : Fair (size + others) link.turns)
    (long : size ≤ link.bytes.length) :
    ∃ middle, Returns (reader.fill size) link (link.bytes.take size) middle ∧
      middle.bytes = link.bytes.drop size ∧ Fair others middle.turns :=
  @readLoop_fair _ _ _ _ [] _ fair long

theorem send_fair (writer : Writer) {bytes : List UInt8} {others : Nat}
    (fair : Fair (bytes.length + others) link.turns) :
    ∃ middle, Returns (writer.send bytes) link () middle ∧ Fair others middle.turns :=
  writeLoop_fair fair

/-- A whole frame is read where the transport is fair. -/
theorem readFrame_fair (inverse : Inverse json) (reader : Reader) {value : α} {body rest : List UInt8}
    (encoded : json.encode value = .ok body) (some_ : 0 < body.length)
    (allowed : body.length ≤ maxMessage)
    (start : link.bytes = toBeBytes body.length ++ (body ++ rest)) {others : Nat}
    (fair : Fair (4 + (body.length + others)) link.turns) :
    ∃ last, Returns (readFrame json reader) link value last ∧ last.bytes = rest ∧
      Fair others last.turns := by
  have small : body.length < 2 ^ 32 := Nat.lt_of_le_of_lt allowed (by decide)
  have four : (toBeBytes body.length).length = 4 := rfl
  obtain ⟨middle, headed, behind, fair⟩ := fill_fair reader fair (by simp [start, four])
  have head : link.bytes.take 4 = toBeBytes body.length := by rw [start, ← four, List.take_left]
  have tail : middle.bytes = body ++ rest := by rw [behind, start, ← four, List.drop_left]
  obtain ⟨last, filled, left, fair⟩ := fill_fair reader fair (by simp [tail])
  have sized := frameSize_toBeBytes some_ allowed
  rw [Nat.mod_eq_of_lt small] at sized
  have parsed : (json.decode body).mapError (fun _ => "invalid IPC message") = .ok value := by
    rw [inverse.decode value body encoded]
    rfl
  have whole : middle.bytes.take body.length = body := by rw [tail, List.take_left]
  refine ⟨last, ?_, by rw [left, tail, List.drop_left], fair⟩
  refine returns_bind.mpr ⟨_, _, headed, returns_bind.mpr ⟨_, _, ?_, returns_bind.mpr ⟨_, _, filled, ?_⟩⟩⟩
  · exact returns_lift.mpr ⟨by rw [head]; exact sized, rfl⟩
  · exact returns_lift.mpr ⟨by rw [whole]; exact parsed, rfl⟩

/-- The turns that a message needs to be written. -/
def need (json : Json α) (value : α) : Nat :=
  match json.encode value with
  | .ok body => 4 + body.length
  | .error _ => 0

/-- A message that may be written: it is encoded within the limit, and its writer's `flush`
    succeeds. -/
structure Sendable (json : Json α) (message : Writer × α) : Prop where
  allowed : ∃ body, json.encode message.2 = .ok body ∧ body.length ≤ maxMessage
  flushed : message.1.flush = .ok ()

theorem writeMany_fair {messages : List (Writer × α)}
    (sendable : ∀ message ∈ messages, Sendable json message)
    (fair : Fair (messages.map fun message => need json message.2).sum link.turns) :
    ∃ last, Returns (writeMany json messages) link () last := by
  induction messages generalizing link with
  | nil => exact ⟨link, rfl⟩
  | cons message rest inductionHypothesis =>
    obtain ⟨body, encoded, allowed⟩ := (sendable message List.mem_cons_self).allowed
    have flushed := (sendable message List.mem_cons_self).flushed
    have cost : need json message.2 = 4 + body.length := by rw [need, encoded]
    rw [List.map_cons, List.sum_cons, cost, Nat.add_assoc] at fair
    obtain ⟨middle, headed, fair⟩ :=
      @send_fair _ message.1 (toBeBytes (body.length % 2 ^ 32)) _ fair
    obtain ⟨next, sent, fair⟩ := send_fair message.1 fair
    obtain ⟨last, others⟩ := inductionHypothesis
      (fun other member => sendable other (List.mem_cons_of_mem _ member)) fair
    have checked : ensure (body.length ≤ maxMessage)
        "IPC response exceeds allowed size; reduce terminal dimensions" = .ok () := by
      simpa using allowed
    have first : Returns (writeFrame json message.1 message.2) link () next :=
      returns_bind.mpr ⟨_, _, returns_lift.mpr ⟨encoded, rfl⟩,
        returns_bind.mpr ⟨_, _, returns_lift.mpr ⟨checked, rfl⟩,
          returns_bind.mpr ⟨_, _, headed,
            returns_bind.mpr ⟨_, _, sent, returns_lift.mpr ⟨flushed, rfl⟩⟩⟩⟩⟩
    exact ⟨last, returns_bind.mpr ⟨_, _, first, others⟩⟩

end Operations

/-! ## Reading what was written -/

section Reading

variable {values : List α} {whole : List UInt8}

/-- Up to a cut, the messages read are the first ones, each with its whole frame before the
    cut. -/
theorem readMany_frames (inverse : Inverse json) (frames : Frames json values whole)
    (readers : List Reader) (link : Link) (cut : link.bytes <+: whole) :
    ∃ others bytes, values = readMany json readers link ++ others ∧
      Frames json (readMany json readers link) bytes ∧ bytes <+: link.bytes := by
  induction readers generalizing values whole link with
  | nil => exact ⟨values, [], rfl, .nil, List.nil_prefix⟩
  | cons reader readers inductionHypothesis =>
    have stops : ∃ others bytes, values = [] ++ others ∧ Frames json [] bytes ∧
        bytes <+: link.bytes := ⟨values, [], rfl, .nil, List.nil_prefix⟩
    unfold readMany
    split
    · rename_i value last returns
      obtain ⟨header, body, start, four, length, decoded⟩ := readFrame_returns returns
      obtain ⟨hidden, together⟩ := cut
      cases frames with
      | nil => simp [start] at together; simp [together] at four
      | @cons first inner values bytes encoded some_ allowed others =>
        rw [start, List.append_assoc, List.append_assoc] at together
        obtain ⟨rfl, behind⟩ := List.append_inj together four
        have small : inner.length < 2 ^ 32 := Nat.lt_of_le_of_lt allowed (by decide)
        rw [fromBeBytes_toBeBytes small] at length
        obtain ⟨rfl, rest⟩ := List.append_inj behind length
        have same := (inverse.decode first body encoded).symm.trans decoded
        cases same
        obtain ⟨later, bytes, split, framed, inside⟩ :=
          inductionHypothesis others last ⟨hidden, rest⟩
        refine ⟨later, _, by rw [List.cons_append, ← split], .cons encoded some_ allowed framed, ?_⟩
        rw [start]
        exact (List.prefix_append_right_inj _).mpr ((List.prefix_append_right_inj _).mpr inside)
    · exact stops

/-- Where the transport is fair, every message is read. -/
theorem readMany_fair (inverse : Inverse json) (frames : Frames json values whole)
    (readers : List Reader) (link : Link) (start : link.bytes = whole)
    (enough : values.length ≤ readers.length) (fair : Fair whole.length link.turns) :
    readMany json readers link = values := by
  induction frames generalizing readers link with
  | nil =>
    obtain ⟨others, -, none_, -⟩ :=
      readMany_frames inverse .nil readers link (by simp [start])
    exact (List.append_eq_nil_iff.mp none_.symm).1
  | @cons value body values bytes encoded some_ allowed _ inductionHypothesis =>
    cases readers with
    | nil => cases enough
    | cons reader readers =>
      have length : (toBeBytes body.length ++ (body ++ bytes)).length =
          4 + (body.length + bytes.length) := by simp [toBeBytes]; omega
      rw [length] at fair
      obtain ⟨last, returns, rest, fair⟩ :=
        readFrame_fair inverse reader encoded some_ allowed start fair
      have others := inductionHypothesis readers last rest (Nat.le_of_succ_le_succ enough) fair
      unfold Returns at returns
      rw [readMany, returns]
      exact congrArg (value :: ·) others

end Reading

/-- Messages arrive as they were written, whatever readers and writers take part, and where the
    stream is cut off the message of the cut frame does not. -/
theorem frame_transport (inverse : Inverse json) :
    (∀ (messages : List (Writer × α)) (turns : List Turn) (link : Link),
      Returns (writeMany json messages) { bytes := [], turns } () link →
      (∀ (readers : List Reader) (turns : List Turn), messages.length ≤ readers.length →
        Fair link.bytes.length turns →
          readMany json readers { link with turns } = messages.map Prod.snd) ∧
      ∀ (cut : Nat) (readers : List Reader) (turns : List Turn),
        ∃ others frames,
          messages.map Prod.snd =
            readMany json readers { bytes := link.bytes.take cut, turns } ++ others ∧
          Frames json (readMany json readers { bytes := link.bytes.take cut, turns }) frames ∧
          frames <+: link.bytes ∧ frames.length ≤ cut) ∧
    (∀ (messages : List (Writer × α)) (turns : List Turn),
      (∀ message ∈ messages, Sendable json message) →
      Fair (messages.map fun message => need json message.2).sum turns →
        ∃ link, Returns (writeMany json messages) { bytes := [], turns } () link) ∧
    ∀ value body, json.encode value = .ok body → body.length ≤ maxMessage →
      frameSize (toBeBytes (body.length % 2 ^ 32)) = .ok body.length := by
  refine ⟨fun messages turns link written => ?_, fun messages turns sendable fair => ?_,
    fun value body encoded allowed => frameSize_toBeBytes (inverse.some encoded) allowed⟩
  · obtain ⟨bytes, sent, frames⟩ := writeMany_returns inverse written
    have whole : link.bytes = bytes := by simpa using sent
    subst whole
    refine ⟨fun readers turns enough fair => ?_, fun cut readers turns => ?_⟩
    · exact readMany_fair inverse frames readers _ rfl (by simpa using enough) fair
    · obtain ⟨others, bytes, split, framed, inside⟩ := readMany_frames inverse frames readers
        { bytes := link.bytes.take cut, turns } (List.take_prefix cut link.bytes)
      have length := inside.length_le
      rw [List.length_take] at length
      exact ⟨others, bytes, split, framed, inside.trans (List.take_prefix cut link.bytes), by omega⟩
  · exact writeMany_fair sendable fair

/-- Truth values in JSON. -/
def truth : Json Bool where
  encode value := .ok (if value then [0x74, 0x72, 0x75, 0x65] else [0x66, 0x61, 0x6c, 0x73, 0x65])
  decode bytes :=
    if bytes = [0x74, 0x72, 0x75, 0x65] then .ok true
    else if bytes = [0x66, 0x61, 0x6c, 0x73, 0x65] then .ok false
    else .error "expected value"

theorem truth_inverse : Inverse truth where
  decode := fun value bytes encoded => by
    cases encoded
    cases value <;> rfl
  empty := fun value decoded => by cases decoded

/-- Two messages, written at once and read in small parts. -/
theorem frame_transport_truth :
    readMany truth [.deadline, .frame]
      { bytes := [0, 0, 0, 4, 0x74, 0x72, 0x75, 0x65, 0, 0, 0, 5, 0x66, 0x61, 0x6c, 0x73, 0x65]
        turns := .interrupted :: List.replicate 17 (.moves 2) } = [true, false] :=
  ((frame_transport truth_inverse).1 [(.frame (.ok ()), true), (.deadline, false)]
    (List.replicate 4 (.moves 9)) _ rfl).1 [.deadline, .frame] _ (by decide)
      ⟨by decide, by decide⟩

end Idk.Protocol
