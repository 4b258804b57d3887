import Idk.Host.Ingress
import Mathlib.Data.List.TakeWhile
import Mathlib.Tactic.SplitIfs

/-!
# The filter passes everything but a body that is too long

A stream is read as spans: single bytes, and bodies of operating system commands.  The
filter emits every byte and every body that fits, and a cancel byte for one that does not,
however the stream is cut into chunks.

**Main results:**

- `machine_spans`: what the byte machine emits and holds, span by span.
- `ingress_exact`: the same of the filter, chunk by chunk.
-/

namespace Idk.Terminal

open Idk.Logic

/-! ## Spans of a stream -/

inductive Span where
  | plain (byte : UInt8)
  /-- A body, from its `]` on, and the byte that ends it. -/
  | osc (body : List UInt8) (terminator : UInt8)
  | unfinished (body : List UInt8)
deriving DecidableEq

namespace Span

def bytes : Span → List UInt8
  | .plain byte => [byte]
  | .osc body terminator => body ++ [terminator]
  | .unfinished body => body

/-- The body that is held back. -/
def body : Span → List UInt8
  | .plain _ => []
  | .osc body _ => body
  | .unfinished body => body

def Fits (span : Span) : Prop := span.body.length ≤ maxOscBytes

instance (span : Span) : Decidable span.Fits := inferInstanceAs (Decidable (_ ≤ _))

/-- What the parser gets: of a body that is too long a cancel byte, and the terminator
    unless it is BEL, which would ring. -/
def emitted : Span → List UInt8
  | .plain byte => [byte]
  | .osc body terminator =>
    if body.length ≤ maxOscBytes then body ++ [terminator]
    else 0x18 :: if terminator = 0x07 then [] else [terminator]
  | .unfinished body => if body.length ≤ maxOscBytes then [] else [0x18]

/-- What is still held back. -/
def held : Span → List UInt8
  | .plain _ | .osc _ _ => []
  | .unfinished body => if body.length ≤ maxOscBytes then body else []

end Span

/-- The spans of a stream; `escape` says that the parser stands behind an ESC. -/
def spans (escape : Bool) : List UInt8 → List Span
  | [] => []
  | byte :: rest =>
    if escape ∧ byte = 93 then
      match _same : rest.dropWhile (!endsOsc ·) with
      | [] => [.unfinished (byte :: rest)]
      | terminator :: after =>
        .osc (byte :: rest.takeWhile (!endsOsc ·)) terminator :: spans (terminator == 0x1b) after
    else .plain byte :: spans (byte == 0x1b || (escape && !leavesEscape byte)) rest
termination_by bytes => bytes.length
decreasing_by
  · have shorter := (List.dropWhile_suffix (l := rest) (!endsOsc ·)).length_le
    rw [_same] at shorter
    simp only [List.length_cons] at shorter ⊢
    omega
  · simp

theorem takeWhile_of_dropWhile {bytes : List UInt8} (all : bytes.dropWhile (!endsOsc ·) = []) :
    bytes.takeWhile (!endsOsc ·) = bytes := by
  have whole := List.takeWhile_append_dropWhile (p := (!endsOsc ·)) (l := bytes)
  rwa [all, List.append_nil] at whole

/-- The spans are the stream. -/
theorem spans_bytes (escape : Bool) (stream : List UInt8) :
    (spans escape stream).flatMap Span.bytes = stream := by
  fun_induction spans escape stream with
  | case1 => rfl
  | case2 => simp [Span.bytes]
  | case3 escape byte rest _ terminator after same inductionHypothesis =>
    have whole := List.takeWhile_append_dropWhile (p := (!endsOsc ·)) (l := rest)
    rw [same] at whole
    simp [Span.bytes, inductionHypothesis, whole]
  | case4 escape byte rest _ inductionHypothesis =>
    simp [Span.bytes, inductionHypothesis]

/-- A body is no longer than its stream. -/
theorem spans_short {escape : Bool} {stream : List UInt8} {span : Span}
    (mem : span ∈ spans escape stream) : span.body.length ≤ stream.length := by
  have whole := spans_bytes escape stream
  obtain ⟨before, after, same⟩ := List.append_of_mem mem
  have most : span.bytes.length ≤ stream.length := by
    rw [← whole, same]
    simp only [List.flatMap_append, List.flatMap_cons, List.length_append]
    omega
  cases span with
  | plain => simp [Span.body]
  | osc body terminator =>
    simp only [Span.bytes, List.length_append] at most
    simp only [Span.body]
    omega
  | unfinished => exact most

/-- When every body fits nothing is lost. -/
theorem spans_emitted {escape : Bool} {stream : List UInt8}
    (fits : ∀ span ∈ spans escape stream, span.Fits) :
    (spans escape stream).flatMap Span.emitted ++ (spans escape stream).flatMap Span.held =
      stream := by
  fun_induction spans escape stream with
  | case1 => rfl
  | case2 escape byte rest =>
    have fit := fits (.unfinished (byte :: rest)) (by simp)
    simp only [Span.Fits, Span.body] at fit
    simp only [List.flatMap_cons, List.flatMap_nil, Span.emitted, Span.held, if_pos fit,
      List.nil_append, List.append_nil]
  | case3 escape byte rest _ terminator after same inductionHypothesis =>
    have whole := List.takeWhile_append_dropWhile (p := (!endsOsc ·)) (l := rest)
    have fit := fits (.osc (byte :: rest.takeWhile (!endsOsc ·)) terminator) (by simp)
    have others := inductionHypothesis fun span mem => fits span (by simp [mem])
    simp only [Span.Fits, Span.body] at fit
    rw [same] at whole
    simp only [List.flatMap_cons, Span.emitted, Span.held, if_pos fit, List.nil_append,
      List.append_assoc, others]
    simp [whole]
  | case4 escape byte rest _ inductionHypothesis =>
    have others := inductionHypothesis fun span mem => fits span (by simp [mem])
    simp [Span.emitted, Span.held, others]

/-! ## The byte machine -/

namespace Ingress

/-- A body that grows: it is held as long as it fits and then given up. -/
theorem machine_body (limited : Bool) {held bytes : List UInt8} (fits : held.length ≤ maxOscBytes)
    (inside : ∀ byte ∈ bytes, endsOsc byte = false) :
    machine step ⟨.osc, held, limited⟩ bytes =
      if held.length + bytes.length ≤ maxOscBytes then (⟨.osc, held ++ bytes, limited⟩, [])
      else (⟨.discardOsc, [], true⟩, [0x18]) := by
  induction bytes generalizing held with
  | nil => simp [fits]
  | cons byte rest inductionHypothesis =>
    have inner : endsOsc byte = false := inside byte (by simp)
    have others : ∀ byte ∈ rest, endsOsc byte = false := fun byte mem => inside byte (by simp [mem])
    by_cases room : held.length < maxOscBytes
    · have grown := @inductionHypothesis (held ++ [byte]) (by simp; omega) others
      have kept : step ⟨.osc, held, limited⟩ byte = (⟨.osc, held ++ [byte], limited⟩, []) := by
        simp [step, inner, room]
      have count : (held ++ [byte]).length + rest.length = held.length + (byte :: rest).length := by
        simp only [List.length_append, List.length_cons, List.length_nil]
        omega
      simp only [machine_cons, kept, grown, count]
      by_cases still : held.length + (byte :: rest).length ≤ maxOscBytes
      · simp only [if_pos still, List.append_assoc, List.cons_append, List.nil_append]
      · simp only [if_neg still, List.nil_append]
    · have discarded : ∀ bytes : List UInt8, (∀ byte ∈ bytes, endsOsc byte = false) →
          machine step ⟨.discardOsc, [], true⟩ bytes = (⟨.discardOsc, [], true⟩, []) := by
        intro bytes
        induction bytes with
        | nil => simp
        | cons byte rest inductionHypothesis =>
          intro inside
          have inner := inside byte (by simp)
          simp only [endsOsc, Bool.or_eq_false_iff, beq_eq_false_iff_ne] at inner
          have same := inductionHypothesis fun byte mem => inside byte (by simp [mem])
          simp [step, inner.1.1.1, inner.1.1.2, inner.1.2, inner.2, same]
      have long : ¬ held.length + (byte :: rest).length ≤ maxOscBytes := by
        simp only [List.length_cons]
        omega
      rw [if_neg long]
      simp [step, inner, room, discarded rest others]

/-- The state behind a byte that ends a body or a body that was given up. -/
def resting (escape : Bool) (limited : Bool) : Ingress :=
  ⟨if escape then .escape else .ground, [], limited⟩

theorem step_plain (escape limited : Bool) {byte : UInt8} (outside : ¬ (escape ∧ byte = 93)) :
    step (resting escape limited) byte =
      (resting (byte == 0x1b || (escape && !leavesEscape byte)) limited, [byte]) := by
  cases escape with
  | false => by_cases isEscape : byte = 0x1b <;> simp [step, resting, isEscape]
  | true =>
    have other : byte ≠ 93 := by simpa using outside
    by_cases isEscape : byte = 0x1b
    · subst isEscape
      simp [step, resting, leavesEscape]
    · by_cases leaves : leavesEscape byte <;> simp [step, resting, other, isEscape, leaves]

/-- The terminator of a body that was held. -/
theorem step_terminator (held : List UInt8) (limited : Bool) {byte : UInt8} (ends : endsOsc byte) :
    step ⟨.osc, held, limited⟩ byte = (resting (byte == 0x1b) limited, held ++ [byte]) := by
  simp only [step, if_pos ends, resting, beq_iff_eq]

/-- The terminator of a body that was given up. -/
theorem step_discarded (limited : Bool) {byte : UInt8} (ends : endsOsc byte) :
    step ⟨.discardOsc, [], limited⟩ byte =
      (resting (byte == 0x1b) limited, if byte = 0x07 then [] else [byte]) := by
  simp only [endsOsc, Bool.or_eq_true, beq_iff_eq] at ends
  obtain ((rfl | rfl) | rfl) | rfl := ends <;> simp [step, resting]

/-- What is emitted and held of a stream, span by span. -/
theorem machine_spans (escape limited : Bool) (stream : List UInt8) :
    (machine step (resting escape limited) stream).2 = (spans escape stream).flatMap Span.emitted ∧
      (machine step (resting escape limited) stream).1.osc =
        (spans escape stream).flatMap Span.held := by
  fun_induction spans escape stream generalizing limited with
  | case1 => simp [resting]
  | case2 escape byte rest opens all =>
    obtain ⟨rfl, rfl⟩ : escape = true ∧ byte = 93 := by simpa using opens
    have inside : ∀ byte ∈ rest, endsOsc byte = false := by
      simpa using List.dropWhile_eq_nil_iff.mp all
    have body := @machine_body limited [93] _ (by decide) inside
    have first : step (resting true limited) 93 = (⟨.osc, [93], limited⟩, []) := rfl
    simp only [machine_cons, first, body]
    simp only [List.length_cons, List.length_nil, Span.emitted, Span.held, List.flatMap_cons,
      List.flatMap_nil, List.append_nil, Nat.add_comm rest.length]
    split_ifs <;> simp
  | case3 escape byte rest opens terminator after same inductionHypothesis =>
    obtain ⟨rfl, rfl⟩ : escape = true ∧ byte = 93 := by simpa using opens
    have ends : endsOsc terminator = true := by
      have head := List.head?_dropWhile_not (!endsOsc ·) rest
      rw [same] at head
      simpa using head
    have whole := List.takeWhile_append_dropWhile (p := (!endsOsc ·)) (l := rest)
    rw [same] at whole
    have inside : ∀ byte ∈ rest.takeWhile (!endsOsc ·), endsOsc byte = false := by
      simpa using fun byte mem => List.mem_takeWhile_imp (p := (!endsOsc ·)) mem
    have body := @machine_body limited [93] _ (by decide) inside
    have first : step (resting true limited) 93 = (⟨.osc, [93], limited⟩, []) := rfl
    clear same
    generalize rest.takeWhile (!endsOsc ·) = inner at whole inside body
    subst whole
    simp only [machine_cons, machine_append, first, body]
    simp only [List.length_cons, List.length_nil, Span.emitted, Span.held, List.flatMap_cons,
      Nat.add_comm inner.length]
    by_cases fits : 0 + 1 + inner.length ≤ maxOscBytes
    · have others := inductionHypothesis limited
      simp [fits, step_terminator _ _ ends, others.1, others.2]
    · have others := inductionHypothesis true
      simp [fits, step_discarded _ ends, others.1, others.2]
  | case4 escape byte rest outside inductionHypothesis =>
    have others := inductionHypothesis limited
    simp [step_plain _ _ outside, Span.emitted, Span.held, others.1, others.2]

/-- A stream without an ESC passes the ground state as it is. -/
theorem machine_ground {ingress : Ingress} (ground : ingress.state = .ground)
    {bytes : List UInt8} (none_ : ∀ byte ∈ bytes, byte ≠ 0x1b) :
    machine step ingress bytes = (ingress, bytes) := by
  induction bytes with
  | nil => rfl
  | cons byte rest inductionHypothesis =>
    have other : byte ≠ 0x1b := none_ byte (by simp)
    have others := inductionHypothesis fun byte mem => none_ byte (by simp [mem])
    have stays : step ingress byte = (ingress, [byte]) := by
      cases ingress
      simp_all [step]
    simp [stays, others]

/-- The fast path is none for what it emits. -/
theorem filter_eq (ingress : Ingress) (bytes : List UInt8) :
    ingress.filter bytes = machine step ingress bytes := by
  unfold filter
  split_ifs with fast
  · refine (machine_ground fast.1 fun byte mem isEscape => fast.2 ?_).symm
    simpa [isEscape] using mem
  · rfl

/-- A body is only held in its own state, and never more of it than the limit. -/
theorem step_holds (ingress : Ingress) (byte : UInt8) (held : ingress.osc.length ≤ maxOscBytes ∧
    (ingress.state ≠ .osc → ingress.osc = [])) :
    (ingress.step byte).1.osc.length ≤ maxOscBytes ∧
      ((ingress.step byte).1.state ≠ .osc → (ingress.step byte).1.osc = []) := by
  obtain ⟨state, osc, limited⟩ := ingress
  have one : 1 ≤ maxOscBytes := by decide
  cases state with
  | ground =>
    simp only [step]
    simp_all
  | escape =>
    simp only [step]
    split_ifs <;> simp_all
  | osc =>
    simp only [step]
    split_ifs with ends isEscape room
    · simp
    · simp
    · simp only [List.length_append, List.length_cons, List.length_nil, ne_eq, not_true_eq_false,
        false_implies, and_true]
      omega
    · simp
  | discardOsc =>
    simp only [step]
    split_ifs <;> simp_all

theorem chunked_filter (ingress : Ingress) (chunks : List (List UInt8)) :
    chunked filter ingress chunks = ingress.filter chunks.flatten := by
  have same : filter = machine step := by
    funext ingress bytes
    exact filter_eq ingress bytes
  rw [same, chunked_machine]

/-- Cutting a stream changes nothing, from any state; of a stream from its start every span
    is passed, or cancelled when its body is too long, and what is held stays bounded. -/
theorem ingress_exact (chunks : List (List UInt8)) :
    (∀ ingress : Ingress, chunked filter ingress chunks = ingress.filter chunks.flatten) ∧
      (spans false chunks.flatten).flatMap Span.bytes = chunks.flatten ∧
      (chunked filter .new chunks).2 = (spans false chunks.flatten).flatMap Span.emitted ∧
      ((∀ span ∈ spans false chunks.flatten, span.Fits) →
        (chunked filter .new chunks).2 ++ (chunked filter .new chunks).1.osc = chunks.flatten) ∧
      (chunked filter .new chunks).1.osc.length ≤ maxOscBytes := by
  have read : chunked filter .new chunks = machine step (resting false false) chunks.flatten := by
    rw [chunked_filter, filter_eq]
    rfl
  have passed := machine_spans false false chunks.flatten
  refine ⟨fun ingress => chunked_filter ingress chunks, spans_bytes false _, ?_, ?_, ?_⟩
  · rw [read, passed.1]
  · intro fits
    rw [read, passed.1, passed.2, spans_emitted fits]
  · have holds := @machine_keeps _ _ _ step _ (fun state symbol => step_holds state symbol)
      (resting false false) (by simp [resting]) chunks.flatten
    rw [read]
    exact holds.1

/-- A title that is cut behind its `]`. -/
theorem ingress_exact_title :
    (chunked filter .new [[0x1b, 93], [50, 7, 65]]).2 ++
      (chunked filter .new [[0x1b, 93], [50, 7, 65]]).1.osc = [0x1b, 93, 50, 7, 65] :=
  (ingress_exact [[0x1b, 93], [50, 7, 65]]).2.2.2.1 fun _ mem =>
    (spans_short mem).trans (by decide)

end Ingress

end Idk.Terminal
