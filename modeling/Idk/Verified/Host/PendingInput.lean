import Idk.Host.PendingInput
import Mathlib.Tactic.SplitIfs

/-!
# The input queue keeps what it has accepted

Whatever is typed, replied and written, in any order, the byte counter is what the queue
holds, nothing is lost or reordered before a write fails, and replies never take the room
of the user.

**Main results:**

- `Accounted.after`: one event keeps the accounts of the queue.
- `input_queue_exact`: the accounts, in every state that is reached.
-/

namespace Idk.Terminal

open Idk.Logic

theorem saturatingAdd_le {left right limit : Nat} (small : limit < 2 ^ 64 - 1) :
    saturatingAdd left right ≤ limit ↔ left + right ≤ limit := by
  unfold saturatingAdd
  omega

namespace PendingInput

/-- The bytes that are still to be written. -/
def text (input : PendingInput) : List UInt8 := input.pending.flatten.drop input.pendingOffset

/-- The counter is what the chunks hold but for the offset, and no chunk is used up. -/
structure Counted (input : PendingInput) : Prop where
  total : input.pendingBytes + input.pendingOffset = (input.pending.map List.length).sum
  empty : input.pending = [] → input.pendingOffset = 0
  inside : ∀ front rest, input.pending = front :: rest → input.pendingOffset < front.length
  filled : ∀ chunk ∈ input.pending, chunk ≠ []
  bounded : input.pendingBytes ≤ maxPendingInput

theorem Counted.length_text {input : PendingInput} (counted : input.Counted) :
    input.text.length = input.pendingBytes := by
  have total := counted.total
  simp only [text, List.length_drop, List.length_flatten]
  omega

/-- `queue` takes what there is room for, at its end. -/
theorem queue_cases (input : PendingInput) (bytes : List UInt8) :
    (input.pendingBytes + bytes.length ≤ maxPendingInput ∧ bytes = [] ∧
        input.queue bytes = .ok input) ∨
      (input.pendingBytes + bytes.length ≤ maxPendingInput ∧ bytes ≠ [] ∧
        input.queue bytes = .ok { input with
          pending := input.pending ++ [bytes]
          pendingBytes := input.pendingBytes + bytes.length }) ∨
      (maxPendingInput < input.pendingBytes + bytes.length ∧ ∃ error, input.queue bytes = .error error) := by
  have room := @saturatingAdd_le input.pendingBytes bytes.length maxPendingInput (by decide)
  by_cases fits : input.pendingBytes + bytes.length ≤ maxPendingInput
  · have allowed := decide_eq_true (room.mpr fits)
    by_cases empty : bytes = []
    · left
      refine ⟨fits, empty, ?_⟩
      rw [queue, allowed, ensure_true, empty]
      rfl
    · right; left
      refine ⟨fits, empty, ?_⟩
      simp only [queue, allowed, ensure_true, List.isEmpty_iff, empty]
      rfl
  · right; right
    have refused := decide_eq_false (mt room.mp fits)
    refine ⟨by omega, "terminal input queue is full; retry after pending input drains", ?_⟩
    simp only [queue, refused, ensure_false]
    rfl

theorem Counted.queue {input queued : PendingInput} (counted : input.Counted)
    {bytes : List UInt8} (done : input.queue bytes = .ok queued) :
    queued.Counted ∧ queued.text = input.text ++ bytes ∧
      queued.pendingBytes = input.pendingBytes + bytes.length := by
  obtain ⟨-, rfl, same⟩ | ⟨room, filled, same⟩ | ⟨-, error, failed⟩ := input.queue_cases bytes
  · rw [same] at done
    cases done
    simp [counted]
  · rw [same] at done
    cases done
    have total := counted.total
    refine ⟨⟨?_, ?_, ?_, ?_, room⟩, ?_, rfl⟩
    · simp only [List.map_append, List.map_cons, List.map_nil, List.sum_append, List.sum_cons,
        List.sum_nil]
      omega
    · simp
    · intro front rest split
      cases before : input.pending with
      | nil =>
        have start := counted.empty before
        simp only [before, List.nil_append, List.cons.injEq] at split
        have some_ := List.length_pos_iff.mpr filled
        rw [← split.1, start]
        exact some_
      | cons first others =>
        simp only [before, List.cons_append, List.cons.injEq] at split
        rw [← split.1]
        exact counted.inside first others before
    · intro chunk mem
      obtain old | new := List.mem_append.mp mem
      · exact counted.filled chunk old
      · rw [List.mem_singleton.mp new]
        exact filled
    · have inside : input.pendingOffset ≤ input.pending.flatten.length := by
        simp only [List.length_flatten]
        omega
      simp [text, List.drop_append_of_le_length inside]
  · rw [failed] at done
    cases done

/-- A reply is queued below its own limit, or the queue stays as it is. -/
theorem reply_cases (input : PendingInput) (text : List UInt8) :
    (input.pendingBytes + text.length ≤ maxPendingReplies ∧
        input.queue text = .ok (input.reply text)) ∨
      (maxPendingReplies < input.pendingBytes + text.length ∧
        input.reply text = { input with outputLimited := true }) := by
  have room := @saturatingAdd_le input.pendingBytes text.length maxPendingReplies (by decide)
  by_cases fits : input.pendingBytes + text.length ≤ maxPendingReplies
  · left
    have below : ¬ maxPendingReplies < saturatingAdd input.pendingBytes text.length := by
      simpa using room.mpr fits
    have lower : maxPendingReplies ≤ maxPendingInput := by decide
    refine ⟨fits, ?_⟩
    obtain ⟨-, -, same⟩ | ⟨-, -, same⟩ | ⟨full, -⟩ := input.queue_cases text
    · rw [reply, if_neg below, same]
    · rw [reply, if_neg below, same]
    · omega
  · right
    have above : maxPendingReplies < saturatingAdd input.pendingBytes text.length := by
      have not_ := mt room.mp fits
      omega
    exact ⟨by omega, by rw [reply, if_pos above]⟩

theorem offered_text (input : PendingInput) (counted : input.Counted) :
    input.offered <+: input.text := by
  unfold offered text
  cases shape : input.pending with
  | nil => simp
  | cons front rest =>
    have inside := counted.inside front rest shape
    have whole : front.drop input.pendingOffset <+: (front :: rest).flatten.drop input.pendingOffset := by
      rw [List.flatten_cons, List.drop_append_of_le_length (by omega)]
      exact List.prefix_append _ _
    refine List.IsPrefix.trans ?_ whole
    dsimp only
    rw [List.drop_take]
    exact List.take_prefix _ _

/-- A write takes a part of the first chunk, and all of it in the end. -/
theorem Counted.wrote {input : PendingInput} (counted : input.Counted) {count : Nat}
    (given : count ≤ input.offered.length) :
    (input.flush (.wrote count)).Counted ∧
      (input.flush (.wrote count)).text = input.text.drop count ∧
      count ≤ input.pendingBytes ∧
      (input.flush (.wrote count)).pendingBytes = input.pendingBytes - count := by
  have length := counted.length_text
  have most : count ≤ input.pendingBytes := by
    have shorter := (input.offered_text counted).length_le
    omega
  cases shape : input.pending with
  | nil =>
    have none_ : count = 0 := by simpa [offered, shape] using given
    subst none_
    simp [flush, shape, counted]
  | cons front rest =>
    have inside := counted.inside front rest shape
    have total := counted.total
    have bounded := counted.bounded
    have within : input.pendingOffset + count ≤ front.length := by
      simp only [offered, shape, List.length_drop, List.length_take] at given
      omega
    simp only [shape, List.map_cons, List.sum_cons] at total
    cases count with
    | zero =>
      refine ⟨⟨?_, ?_, ?_, ?_, ?_⟩, ?_⟩
      · simpa [flush, shape] using total
      · simp [flush, shape]
      · simpa [flush, shape] using inside
      · simpa [flush, shape] using counted.filled
      · simpa [flush, shape] using bounded
      · simp [flush, shape, text]
    | succ count =>
      by_cases last : input.pendingOffset + (count + 1) = front.length
      · -- the chunk is used up and the next one starts from its beginning
        refine ⟨⟨?_, ?_, ?_, ?_, ?_⟩, ?_, most, ?_⟩
        · simp only [flush, shape, if_pos last]
          omega
        · simp [flush, shape, last]
        · intro next others split
          simp only [flush, shape, if_pos last] at split ⊢
          have filled := counted.filled next (by simp [shape, split])
          exact List.length_pos_iff.mpr filled
        · intro chunk mem
          simp only [flush, shape, if_pos last] at mem
          exact counted.filled chunk (by simp [shape, mem])
        · simp only [flush, shape, if_pos last]
          omega
        · simp [flush, shape, last, text]
        · simp [flush, shape, last]
      · have part : input.pendingOffset + (count + 1) < front.length := by omega
        refine ⟨⟨?_, ?_, ?_, ?_, ?_⟩, ?_, most, ?_⟩
        · simp only [flush, shape, if_neg last, List.map_cons, List.sum_cons]
          omega
        · simp [flush, shape, last]
        · intro next others split
          simp only [flush, shape, if_neg last, List.cons.injEq] at split ⊢
          rw [← split.1]
          exact part
        · intro chunk mem
          simp only [flush, shape, if_neg last] at mem
          exact counted.filled chunk (by simpa [shape] using mem)
        · simp only [flush, shape, if_neg last]
          omega
        · simp only [flush, shape, if_neg last, text, List.drop_drop]
        · simp [flush, shape, last]

end PendingInput

/-! ## Every run -/

namespace Traffic

/-- The accounts of the queue. -/
structure Accounted (traffic : Traffic) : Prop where
  counted : traffic.queue.Counted
  ordered : traffic.lost = false → traffic.delivered ++ traffic.queue.text = traffic.accepted
  sourced : traffic.sources.length = traffic.queue.pendingBytes
  replies : traffic.sources.count .reply ≤ maxPendingReplies

theorem Accounted.entered {traffic : Traffic} (accounted : traffic.Accounted) {source : Source}
    {bytes : List UInt8} {queued : PendingInput} (done : traffic.queue.queue bytes = .ok queued)
    (small : source = .reply → queued.pendingBytes ≤ maxPendingReplies) :
    (traffic.entered source bytes queued).Accounted := by
  obtain ⟨counted, text, total⟩ := accounted.counted.queue done
  have sourced := accounted.sourced
  refine ⟨counted, ?_, ?_, ?_⟩
  · intro kept
    have ordered := accounted.ordered kept
    simp only [Traffic.entered, text, ← List.append_assoc, ordered]
  · simp only [Traffic.entered, List.length_append, List.length_replicate]
    omega
  · have before := accounted.replies
    have most := (traffic.sources ++ List.replicate bytes.length source).count_le_length (a := .reply)
    simp only [Traffic.entered]
    cases source with
    | user => simpa [List.count_replicate] using before
    | reply =>
      have bound := small rfl
      simp only [List.length_append, List.length_replicate] at most
      omega

theorem Accounted.after {traffic : Traffic} (accounted : traffic.Accounted) {event : InputEvent}
    (possible : event.Possible traffic) : (traffic.after event).Accounted := by
  cases event with
  | input bytes =>
    simp only [Traffic.after]
    split
    · rename_i queued done
      exact accounted.entered done fun same => by cases same
    · exact accounted
  | replied text =>
    have unchanged : ({ traffic with queue := traffic.queue.reply text } : Traffic).Accounted ∨
        traffic.queue.queue text = .ok (traffic.queue.reply text) := by
      obtain ⟨-, queued⟩ | ⟨-, dropped⟩ := traffic.queue.reply_cases text
      · exact .inr queued
      · left
        rw [dropped]
        exact ⟨⟨accounted.counted.total, accounted.counted.empty, accounted.counted.inside,
          accounted.counted.filled, accounted.counted.bounded⟩, accounted.ordered,
          accounted.sourced, accounted.replies⟩
    simp only [Traffic.after]
    split_ifs with same
    · obtain kept | queued := unchanged
      · exact kept
      · -- an empty reply is queued as nothing
        obtain ⟨counted, content, total⟩ := accounted.counted.queue queued
        have none_ : text = [] := List.length_eq_zero_iff.mp (by omega)
        subst none_
        have sourced := accounted.sourced
        refine ⟨counted, ?_, by simp only; omega, accounted.replies⟩
        intro kept
        simpa [content] using accounted.ordered kept
    · obtain ⟨room, queued⟩ | ⟨-, dropped⟩ := traffic.queue.reply_cases text
      · have total := (accounted.counted.queue queued).2.2
        exact accounted.entered queued fun _ => by omega
      · rw [dropped] at same
        exact absurd rfl same
  | flushed answer =>
    cases answer with
    | wrote count =>
      obtain ⟨counted, content, most, total⟩ := accounted.counted.wrote possible
      have sourced := accounted.sourced
      refine ⟨counted, ?_, ?_, ?_⟩
      · intro kept
        have ordered := accounted.ordered kept
        have taken : traffic.queue.offered.take count = traffic.queue.text.take count := by
          have first := traffic.queue.offered_text accounted.counted
          have possible : count ≤ traffic.queue.offered.length := possible
          obtain ⟨rest, whole⟩ := first
          rw [← whole, List.take_append_of_le_length possible]
        simp only [Traffic.after, content, taken, List.append_assoc, List.take_append_drop, ordered]
      · simp only [Traffic.after, List.length_drop]
        omega
      · have fewer := (List.drop_sublist count traffic.sources).count_le (a := .reply)
        have before := accounted.replies
        simp only [Traffic.after]
        omega
    | wouldBlock | interrupted =>
      have same : traffic.queue.flush .wouldBlock = traffic.queue ∧
          traffic.queue.flush .interrupted = traffic.queue := by
        cases shape : traffic.queue.pending <;> simp [PendingInput.flush, shape]
      simpa [Traffic.after, same] using accounted
    | failed error =>
      simp only [Traffic.after]
      split_ifs with empty
      · exact accounted
      · have gone : (traffic.queue.flush (.failed error)).pending = [] ∧
            (traffic.queue.flush (.failed error)).pendingBytes = 0 ∧
            (traffic.queue.flush (.failed error)).pendingOffset = 0 := by
          cases shape : traffic.queue.pending with
          | nil => simp [shape] at empty
          | cons => simp [PendingInput.flush, shape]
        refine ⟨⟨?_, ?_, ?_, ?_, ?_⟩, ?_, ?_, ?_⟩ <;> simp [gone]

theorem accounted_invariant : inputSystem.Invariant Accounted where
  initial := by
    rintro _ rfl
    refine ⟨⟨rfl, fun _ => rfl, ?_, ?_, Nat.zero_le _⟩, fun _ => rfl, rfl, Nat.zero_le _⟩
    · intro _ _ impossible
      cases impossible
    · intro _ impossible
      cases impossible
  preserved := by
    rintro _ _ _ accounted ⟨possible, rfl⟩
    exact accounted.after possible

/-- The bytes of the user that wait. -/
def userBytes (traffic : Traffic) : Nat := traffic.sources.count .user

theorem Accounted.room {traffic : Traffic} (accounted : traffic.Accounted) {bytes : List UInt8}
    (small : traffic.userBytes + bytes.length ≤ maxPendingInput - maxPendingReplies) :
    ∃ queued, traffic.queue.queue bytes = .ok queued := by
  have both : traffic.sources.count .user + traffic.sources.count .reply = traffic.sources.length := by
    induction traffic.sources with
    | nil => rfl
    | cons source rest inductionHypothesis =>
      cases source <;> simp <;> omega
  have replies := accounted.replies
  have sourced := accounted.sourced
  have lower : maxPendingReplies ≤ maxPendingInput := by decide
  simp only [userBytes] at small
  obtain ⟨-, -, done⟩ | ⟨-, -, done⟩ | ⟨full, -⟩ := traffic.queue.queue_cases bytes
  · exact ⟨_, done⟩
  · exact ⟨_, done⟩
  · omega

/-- In every state that any inputs, replies and writes lead to: the counter is what is queued
    and is never taken below zero, what was accepted is delivered in order or waits unless a
    write has failed, what is refused changes nothing, and replies stay below their limit. -/
theorem input_queue_exact {traffic : Traffic} (reached : inputSystem.Reachable traffic) :
    traffic.queue.pendingBytes + traffic.queue.pendingOffset =
        (traffic.queue.pending.map List.length).sum ∧
      traffic.queue.pendingBytes ≤ maxPendingInput ∧
      (∀ count ≤ traffic.queue.offered.length, count ≤ traffic.queue.pendingBytes) ∧
      (traffic.lost = false → traffic.delivered ++ traffic.queue.text = traffic.accepted) ∧
      (∀ bytes error, traffic.queue.queue bytes = .error error →
        traffic.after (.input bytes) = traffic) ∧
      (∀ text, (traffic.queue.reply text).pendingBytes ≤ maxPendingReplies ∨
        traffic.queue.reply text = { traffic.queue with outputLimited := true }) ∧
      (∀ bytes, traffic.userBytes + bytes.length ≤ maxPendingInput - maxPendingReplies →
        ∃ queued, traffic.queue.queue bytes = .ok queued) := by
  have accounted := accounted_invariant.reachable reached
  refine ⟨accounted.counted.total, accounted.counted.bounded, ?_, accounted.ordered, ?_, ?_, ?_⟩
  · intro count given
    exact (accounted.counted.wrote given).2.2.1
  · intro bytes error refused
    simp only [Traffic.after, refused]
  · intro text
    obtain ⟨room, queued⟩ | ⟨-, dropped⟩ := traffic.queue.reply_cases text
    · left
      have total := (accounted.counted.queue queued).2.2
      omega
    · exact .inr dropped
  · intro bytes small
    exact accounted.room small

/-- Two bytes are typed, one of them is written, a reply follows. -/
theorem input_queue_exact_partial :
    (((new.after (.input [104, 105])).after (.flushed (.wrote 1))).after
      (.replied [27])).queue.pendingBytes ≤ maxPendingInput := by
  have written : 1 ≤ (new.after (.input [104, 105])).queue.offered.length := by decide
  exact (input_queue_exact ⟨.new, [.input [104, 105], .flushed (.wrote 1), .replied [27]], rfl,
    .cons ⟨trivial, rfl⟩ (.cons ⟨written, rfl⟩ (.single ⟨trivial, rfl⟩))⟩).2.1

end Traffic

end Idk.Terminal
