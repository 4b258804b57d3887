import Idk.Run.Comparison
import Idk.Verified.Run.ResultStore
import Idk.Verified.Run.ComparisonPartition

/-!
# No bytes are shown but those of the reference

Every view of a stored result goes through one verification: of the length, of the digest and
of the summary.

**Main results:**

- `verified_vouches`: what the verification lets through.
- `result_store_exact`: the store keeps what it has, stays within its budget and serves
  nothing else.
-/

namespace Idk

open Idk.Logic

/-- The bytes are those of the reference of a result: they have its length and its digest, and
    a summary is that of their document. -/
structure Vouched (formats : ProducerFormats) (bodies : Bodies) (result : StructuredResult)
    (bytes : List UInt8) : Prop where
  reference : ∃ body, result.body = some body ∧ bytes.length = body.bytes ∧
    formats.sha256 bytes = body.sha256 ∧ formats.checkPath body false = .ok () ∧
    bodies.lookup (body.named false) = some bytes ∧
    ∀ summary, result.summary = some summary →
      ∃ document, formats.decoder.decode bytes = .ok document ∧
        summarize formats document body.runId = .ok summary
  small : bytes.length ≤ maxResultBytes

variable {formats : ProducerFormats} {answers : StoreAnswers} {bodies : Bodies}
  {result : StructuredResult}

theorem readBody_ok {body : BodyReference} {content bytes : List UInt8}
    (named : result.body = some body)
    (read : readBody formats answers result body content = .ok bytes) :
    content = bytes ∧ bytes.length = body.bytes ∧ formats.sha256 bytes = body.sha256 ∧
      bytes.length ≤ maxResultBytes ∧
      ∀ summary, result.summary = some summary →
        ∃ document, formats.decoder.decode bytes = .ok document ∧
          summarize formats document body.runId = .ok summary := by
  obtain ⟨whole, private_, rest⟩ := bind_eq_ok.mp read
  obtain ⟨_, matched, rest⟩ := bind_eq_ok.mp rest
  have same : content = whole ∧ whole.length ≤ maxResultBytes := by
    simp only [StoreAnswers.readPrivate, bind_eq_ok, ensure_eq_ok, decide_eq_true_eq] at private_
    obtain ⟨_, _, _, _, _, short, found⟩ := private_
    cases found
    exact ⟨rfl, short⟩
  simp only [ensure_eq_ok, Bool.and_eq_true, beq_iff_eq] at matched
  cases result with
  | stored summary stored =>
    obtain ⟨document, decoded, rest⟩ := bind_eq_ok.mp rest
    obtain ⟨found, summarized, rest⟩ := bind_eq_ok.mp rest
    obtain ⟨_, equal, done⟩ := bind_eq_ok.mp rest
    cases done
    cases named
    refine ⟨same.1, matched.1, matched.2, same.2, ?_⟩
    intro shown known
    cases known
    have whole : found = summary := by simpa using equal
    exact ⟨document, decoded, whole ▸ summarized⟩
  | missing | oversize | limited | storageFailed | available => cases named
  | invalid | unsupported | expired | tampered =>
    cases rest
    exact ⟨same.1, matched.1, matched.2, same.2, fun _ known => by cases known⟩

/-- Whatever the verification lets through are the bytes of the reference. -/
theorem verified_vouches {state : StructuredResult} {bytes : List UInt8}
    (passed : verified formats answers bodies result = (state, some bytes)) :
    state = result ∧ Vouched formats bodies result bytes := by
  unfold verified at passed
  split at passed
  · cases passed
  · rename_i body named
    split at passed
    · cases passed
    · cases passed
    · split at passed
      · rename_i found fetched
        cases passed
        refine ⟨rfl, ?_⟩
        unfold fetchBody at fetched
        split at fetched
        · cases fetched
        · rename_i checked
          obtain ⟨_, path, _⟩ := bind_eq_ok.mp checked
          split at fetched
          · cases fetched
          · rename_i content there
            split at fetched
            · rename_i read
              cases fetched
              obtain ⟨rfl, length, digest, short, summary⟩ := readBody_ok named read
              exact ⟨⟨body, named, length, digest, path, there, summary⟩, short⟩
            · cases fetched
      · cases passed
      · cases passed

/-- A result that is not let through is shown without a summary. -/
theorem verified_withheld {state : StructuredResult}
    (refused : verified formats answers bodies result = (state, none)) : state.summary = none := by
  unfold verified at refused
  split at refused
  · rename_i none_
    cases refused
    cases result <;> first | rfl | cases none_
  · split at refused
    · cases refused
      rfl
    · cases refused
      rfl
    · split at refused
      · cases refused
      · cases refused
        rfl
      · cases refused
        rfl


/-! ## The views -/

/-- What the verification of a result leaves: bytes that are vouched for, or none and then no
    summary either. -/
structure Shown (formats : ProducerFormats) (bodies : Bodies) (result state : StructuredResult)
    (found : Option (List UInt8)) : Prop where
  vouched : ∀ bytes, found = some bytes → state = result ∧ Vouched formats bodies result bytes
  withheld : found = none → state.summary = none

theorem verified_shown : Shown formats bodies result (verified formats answers bodies result).1
    (verified formats answers bodies result).2 where
  vouched _ passed := verified_vouches (Prod.ext rfl passed)
  withheld refused := verified_withheld (Prod.ext rfl refused)

theorem Shown.length_le {state : StructuredResult} {found : Option (List UInt8)}
    (shown : Shown formats bodies result state found) : (found.getD []).length ≤ maxResultBytes := by
  cases found with
  | none => exact Nat.zero_le _
  | some bytes => exact (shown.vouched bytes rfl).2.small

/-- A page of the raw body. -/
theorem rawPage_shown {offset limit : Nat} {page : RawResultPage}
    (served : rawPage formats answers bodies result offset limit = .ok page) :
    ∃ found : Option (List UInt8), Shown formats bodies result page.result found ∧
      page.data = ((found.getD []).drop offset).take limit := by
  have shown : Shown formats bodies result _ _ := @verified_shown _ answers _ _
  unfold rawPage at served
  generalize verified formats answers bodies result = passed at served shown
  obtain ⟨state, found⟩ := passed
  obtain ⟨_, limited, rest⟩ := bind_eq_ok.mp served
  obtain ⟨_, within, rest⟩ := bind_eq_ok.mp rest
  cases rest
  refine ⟨found, shown, ?_⟩
  simp only [ensure_eq_ok, Bool.and_eq_true, Bool.or_eq_true, decide_eq_true_eq,
    List.isEmpty_iff] at limited within
  have small := shown.length_le
  unfold rawPageBytes at limited
  unfold maxResultBytes at small
  generalize found.getD [] = bytes at within small ⊢
  obtain within | empty := within
  · have ending : min (saturatingAdd offset limit) bytes.length =
        min (offset + limit) bytes.length := by
      unfold saturatingAdd
      omega
    simp only [Nat.min_eq_left within, ending, List.drop_take, List.take_eq_take_iff,
      List.length_drop]
    omega
  · simp [empty]

/-- A page of findings: those of the document that the bytes hold. -/
theorem findingsPage_shown {offset limit : Nat} {page : FindingPage}
    (served : findingsPage formats answers bodies result offset limit = .ok page) :
    ∃ found, Shown formats bodies result page.result found ∧
      (page.findings ≠ [] → ∃ bytes body document values, found = some bytes ∧
        result.body = some body ∧ formats.decoder.decode bytes = .ok document ∧
        (document.field "findings").bind Json.asArr = some values ∧
        page.findings = takeFindings body.sha256 0
          (((values.mapIdx Prod.mk).drop offset).take limit)) := by
  have shown : Shown formats bodies result _ _ := @verified_shown _ answers _ _
  unfold findingsPage at served
  generalize verified formats answers bodies result = passed at served shown
  obtain ⟨state, found⟩ := passed
  obtain ⟨_, _, rest⟩ := bind_eq_ok.mp served
  dsimp only at rest
  split at rest
  · rename_i summary bytes body summarized named
    obtain ⟨document, decoded, rest⟩ := bind_eq_ok.mp rest
    obtain ⟨values, listed, rest⟩ := bind_eq_ok.mp rest
    obtain ⟨_, _, rest⟩ := bind_eq_ok.mp rest
    cases rest
    refine ⟨_, shown, fun _ => ⟨bytes, body, document, values, rfl, ?_, decoded,
      context_eq_ok.mp listed, rfl⟩⟩
    rw [← (shown.vouched bytes rfl).1]
    exact named
  · cases rest
    exact ⟨_, shown, fun some => absurd rfl some⟩

/-- What an export leaves at its destination. -/
theorem exportResult_shown {destination : ExportAnswers} {path : PathBuf}
    {exported : ExportedResult} {content : List UInt8}
    (served : exportResult formats answers destination bodies result path =
      .ok (exported, content)) :
    Vouched formats bodies result content ∧ exported.sha256 = formats.sha256 content ∧
      exported.bytes = content.length := by
  have shown : Shown formats bodies result _ _ := @verified_shown _ answers _ _
  unfold exportResult at served
  generalize verified formats answers bodies result = passed at served shown
  obtain ⟨state, found⟩ := passed
  obtain ⟨_, _, rest⟩ := bind_eq_ok.mp served
  obtain ⟨bytes, there, rest⟩ := bind_eq_ok.mp rest
  obtain ⟨_, _, rest⟩ := bind_eq_ok.mp rest
  obtain ⟨_, _, rest⟩ := bind_eq_ok.mp rest
  cases rest
  exact ⟨(shown.vouched content (context_eq_ok.mp there)).2, rfl, rfl⟩

/-- A comparison is made between two bodies that are vouched for; any other shows no key. -/
theorem compareResults_shown {oldAnswers newAnswers : StoreAnswers} {baselineId runId : String}
    {baseline current : StructuredResult} :
    let comparison :=
      compareResults formats oldAnswers newAnswers bodies baselineId baseline runId current
    (comparison.Made → ∃ old new, Vouched formats bodies baseline old ∧
        Vouched formats bodies current new) ∧
      (¬ comparison.Made →
        comparison = .without comparison.state baselineId runId comparison.reason) := by
  constructor
  · intro made
    obtain ⟨_, _, old, new, _, _, _, _, _, oldRead, newRead, _⟩ := compareResults_made made
    exact ⟨old, new, (verified_shown.vouched old oldRead).2, (verified_shown.vouched new newRead).2⟩
  · intro unmade
    unfold compareResults at unmade ⊢
    dsimp only at unmade ⊢
    split at unmade
    · split_ifs at unmade ⊢
      · rfl
      · split at unmade
        · split at unmade
          · rename_i delta _
            refine absurd ?_ unmade
            cases delta with
            | mk new unchanged resolved carried complete =>
              cases complete <;> simp [ResultComparison.Made, ResultComparison.ofDelta]
          · simp_all
            rfl
        · simp_all
          rfl
    · simp_all
      rfl

/-! ## The store -/

theorem inspected_body {runId : String} {bytes : List UInt8} {body found : BodyReference}
    (shown : (inspected formats runId bytes body).body = some found) : found = body := by
  unfold inspected at shown
  split at shown
  · cases shown
    rfl
  · split at shown
    · cases shown
      rfl
    · split at shown <;> (cases shown; rfl)

theorem body_observed (decoder : Json.Decoder) (expected : Option String) (bytes : List UInt8) :
    (observed decoder expected bytes).body = none := by
  have lines : ∀ (raws : List (List UInt8)) (observing : Observing),
      observing.progress.body = none → (observing.lines decoder raws).progress.body = none := by
    intro raws
    induction raws with
    | nil => exact fun _ none_ => none_
    | cons raw rest inductionHypothesis =>
      intro observing none_
      unfold Observing.lines
      split
      · apply inductionHypothesis
        unfold Observing.line
        split <;> exact none_
      · exact none_
  have read := lines (splitInclusive bytes) (Observing.start bytes.length expected) rfl
  unfold observed EventProgress.judged
  split <;> exact read

/-- What one more operation does to a store, however it ends. -/
structure PutSound (formats : ProducerFormats) (bodies : Bodies) (answers : StoreAnswers)
    (runId : String) (bytes : List UInt8) (events : Bool) : Prop where
  budget : answers.write.Of bytes →
    (bodies.put formats.toStoreFormats answers runId bytes events).2.bytesUsed ≤
      max bodies.bytesUsed totalResultBytes
  keeps : ∀ name content, bodies.lookup name = some content →
    (bodies.put formats.toStoreFormats answers runId bytes events).2.lookup name = some content
  /-- A reference is made only of bytes that are there in full. -/
  whole : ∀ body, (bodies.put formats.toStoreFormats answers runId bytes events).1 = .ok (.ok body) →
    (bodies.put formats.toStoreFormats answers runId bytes events).2.lookup (body.named events) =
      some bytes

theorem put_sound (formats : ProducerFormats) (bodies : Bodies) (answers : StoreAnswers)
    (runId : String) (bytes : List UInt8) (events : Bool) :
    PutSound formats bodies answers runId bytes events where
  budget honest := by
    obtain within | same := @Bodies.put_budget formats.toStoreFormats answers runId bytes events
      bodies honest
    · omega
    · rw [same]
      omega
  keeps _ _ there := Bodies.put_keeps there
  whole body stored := by
    have ends : Bodies.Put formats.toStoreFormats answers runId bytes events bodies _ :=
      Bodies.put_ends
    generalize bodies.put formats.toStoreFormats answers runId bytes events = outcome
      at ends stored ⊢
    cases ends with
    | refused | full | failed => cases stored
    | found _ there =>
      cases stored
      exact there
    | written =>
      cases stored
      simp

/-- A put that made a reference is repeated for nothing. -/
theorem put_repeated {formats : StoreFormats} {earlier stored last : Bodies}
    {first later : StoreAnswers} {runId : String} {bytes : List UInt8} {events : Bool}
    {body : BodyReference}
    (put : earlier.put formats first runId bytes events = (.ok (.ok body), stored))
    (kept : ∀ content, stored.lookup (body.named events) = some content →
      last.lookup (body.named events) = some content) :
    (last.put formats later runId bytes events).2 = last ∧
      (Bodies.Quiet later → last.put formats later runId bytes events = (.ok (.ok body), last)) := by
  have ends : Bodies.Put formats first runId bytes events earlier _ := Bodies.put_ends
  rw [put] at ends
  have made : body = Bodies.reference formats runId bytes ∧
      Bodies.Allowed formats runId bytes events ∧
      stored.lookup (body.named events) = some bytes := by
    cases ends with
    | found allowed there => exact ⟨rfl, allowed, there⟩
    | written allowed => exact ⟨rfl, allowed, by simp⟩
  obtain ⟨rfl, allowed, there⟩ := made
  have still := kept bytes there
  exact ⟨Bodies.put_taken still, fun quiet => Bodies.put_again quiet allowed still⟩

theorem captureBytes_publishes {runId : String} {bytes : List UInt8} {body : BodyReference}
    (shown : (captureBytes formats answers runId bytes bodies).1.body = some body) :
    bodies.put formats.toStoreFormats answers runId bytes false =
      (.ok (.ok body), (captureBytes formats answers runId bytes bodies).2) := by
  have ends : Bodies.Put formats.toStoreFormats answers runId bytes false bodies _ :=
    Bodies.put_ends
  unfold captureBytes at shown ⊢
  by_cases oversize : maxResultBytes < bytes.length
  · rw [if_pos oversize] at shown
    cases shown
  · rw [if_neg oversize] at shown ⊢
    generalize bodies.put formats.toStoreFormats answers runId bytes false = outcome
      at ends shown ⊢
    cases ends with
    | refused | full | failed => cases shown
    | found | written => rw [inspected_body shown]

theorem events_publishes {runId : String} {file : ProducerFile} {expected : Option String}
    {retain : Bool} {body : BodyReference}
    (shown : (events formats answers runId file expected retain bodies).1.body = some body) :
    ∃ bytes, bodies.put formats.toStoreFormats answers runId bytes true =
      (.ok (.ok body), (events formats answers runId file expected retain bodies).2) := by
  unfold events at shown ⊢
  split at shown
  · cases shown
  · cases shown
  · cases shown
  · rename_i bytes read
    refine ⟨bytes, ?_⟩
    have unnamed := body_observed formats.decoder expected bytes
    by_cases wanted : (retain && !bytes.isEmpty) = true
    · simp only [wanted, if_true] at shown ⊢
      cases stored : bodies.put formats.toStoreFormats answers runId bytes true with
      | mk outcome left =>
        rw [stored] at shown
        cases outcome with
        | error error => cases shown.symm.trans unnamed
        | ok made =>
          cases made with
          | ok found =>
            cases shown
            rfl
          | error state => cases shown.symm.trans unnamed
    · simp only [wanted] at shown
      cases shown.symm.trans unnamed

/-- What holds of a store after any operations. -/
structure StoreSound (formats : ProducerFormats) (first : Bodies) (trace : List StoreEvent)
    (last : Bodies) : Prop where
  budget : last.bytesUsed ≤ max first.bytesUsed totalResultBytes
  keeps : ∀ name content, first.lookup name = some content →
    (∀ event ∈ trace, ¬ event.Removes name) → last.lookup name = some content
  puts : ∀ answers runId bytes events, PutSound formats last answers runId bytes events
  again : ∀ earlier answers runId bytes events body,
    Bodies.put formats.toStoreFormats answers runId bytes events earlier =
        (.ok (.ok body), first) →
      (∀ event ∈ trace, ¬ event.Removes (body.named events)) → ∀ later,
      (last.put formats.toStoreFormats later runId bytes events).2 = last ∧
        (Bodies.Quiet later →
          last.put formats.toStoreFormats later runId bytes events = (.ok (.ok body), last))
  /-- A result names no body, and a stream none, unless its put succeeded. -/
  published : ∀ answers runId,
    (∀ bytes body, (captureBytes formats answers runId bytes last).1.body = some body →
      (last.put formats.toStoreFormats answers runId bytes false).1 = .ok (.ok body)) ∧
    ∀ file expected retain body,
      (events formats answers runId file expected retain last).1.body = some body →
        ∃ bytes, (last.put formats.toStoreFormats answers runId bytes true).1 = .ok (.ok body)

/-- What the four views of a result show. -/
structure ViewsSound (formats : ProducerFormats) (bodies : Bodies) : Prop where
  raw : ∀ answers result offset limit page,
    rawPage formats answers bodies result offset limit = .ok page →
      ∃ found : Option (List UInt8), Shown formats bodies result page.result found ∧
        page.data = ((found.getD []).drop offset).take limit
  findings : ∀ answers result offset limit page,
    findingsPage formats answers bodies result offset limit = .ok page →
      ∃ found, Shown formats bodies result page.result found ∧
        (page.findings ≠ [] → ∃ bytes body document values, found = some bytes ∧
          result.body = some body ∧ formats.decoder.decode bytes = .ok document ∧
          (document.field "findings").bind Json.asArr = some values ∧
          page.findings = takeFindings body.sha256 0
            (((values.mapIdx Prod.mk).drop offset).take limit))
  exported : ∀ answers destination result path made content,
    exportResult formats answers destination bodies result path = .ok (made, content) →
      Vouched formats bodies result content ∧ made.sha256 = formats.sha256 content ∧
        made.bytes = content.length
  compared : ∀ oldAnswers newAnswers baselineId baseline runId current,
    let comparison :=
      compareResults formats oldAnswers newAnswers bodies baselineId baseline runId current
    (comparison.Made → ∃ old new, Vouched formats bodies baseline old ∧
        Vouched formats bodies current new) ∧
      (¬ comparison.Made →
        comparison = .without comparison.state baselineId runId comparison.reason)

/-- After any puts and removals, whatever failed, the store is within its budget, keeps what it
    has, and serves only the bytes of the references it is asked for. -/
theorem result_store_exact {first last : Bodies} {trace : List StoreEvent}
    (run : (storeSystem formats.toStoreFormats).Run first trace last) :
    StoreSound formats first trace last ∧ ViewsSound formats last := by
  refine ⟨⟨run_budget run, fun _ _ there kept => run_keeps run there kept,
    put_sound formats last, ?_, ?_⟩, ⟨?_, ?_, ?_, ?_⟩⟩
  · intro earlier answers runId bytes events body put kept later
    exact put_repeated put fun content there => run_keeps run there kept
  · intro answers runId
    constructor
    · intro bytes body shown
      rw [captureBytes_publishes shown]
    · intro file expected retain body shown
      obtain ⟨bytes, put⟩ := events_publishes shown
      exact ⟨bytes, by rw [put]⟩
  · intro answers result offset limit page served
    exact rawPage_shown served
  · intro answers result offset limit page served
    exact findingsPage_shown served
  · intro answers destination result path made content served
    exact exportResult_shown served
  · intro oldAnswers newAnswers baselineId baseline runId current
    exact compareResults_shown

/-- A body is put into an empty store. -/
theorem result_store_exact_lens :
    StoreSound lensFormats [] [.put lensAnswers lensBody.runId lensText false]
        [(lensBody.named false, lensText)] ∧
      ViewsSound lensFormats [(lensBody.named false, lensText)] := by
  refine result_store_exact (.single ⟨trivial, ?_⟩)
  unfold StoreEvent.after
  decide +kernel

end Idk
