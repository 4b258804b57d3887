import Idk.Logic.Paging
import Idk.Verified.Run.ResultViews
import Idk.Verified.Run.Reports

/-!
# Pages of a result

A page of findings ends where its next one would not fit.  Whatever a finding holds it fits on
a page of its own, so that a client which follows the pages comes to the end.

**Main results:**

- `width_findingOf`: the widest finding.
- `result_paging_exact`: the pages of the findings and of the raw body are the whole of them.
-/

namespace Idk

open Idk.Logic
open Idk.Logic.Json (textWidth keyWidth charWidth intWidth boolWidth)

/-! ## The width of a finding -/

theorem width_location_eq (location : FindingLocation) :
    location.toJson.width = 67 + textWidth location.path +
      (Json.optional location.startLine .nat).width +
      (Json.optional location.startColumn .nat).width +
      (Json.optional location.endLine .nat).width +
      (Json.optional location.endColumn .nat).width := by
  simp [FindingLocation.toJson, Json.width, Json.widthFields, keyWidth, charWidth, Char.utf8Size]
  omega

/-- The fields of a finding take their own widths and 134 bytes. -/
theorem width_finding_eq (finding : StructuredFinding) :
    finding.toJson.width = 134 + textWidth finding.bodySha256 + intWidth finding.index +
      textWidth finding.severity + (Json.optional finding.code .str).width +
      (Json.optional finding.provider .str).width + textWidth finding.message +
      (Json.optional finding.location FindingLocation.toJson).width +
      (Json.optional finding.evidenceObject .str).width +
      (Json.optional finding.dataPointer .str).width + boolWidth finding.truncated := by
  simp [StructuredFinding.toJson, Json.width, Json.widthFields, Json.nat, keyWidth, charWidth,
    Char.utf8Size]
  omega

theorem width_bounded {text : Option String} {limit : Nat} (some : 1 ≤ limit) :
    (Json.optional (boundedOption text limit).1 .str).width ≤ 4 * limit + 2 := by
  refine Json.width_optional_text (by omega) fun shown same => ?_
  cases text with
  | none => cases same
  | some text =>
    cases same
    exact textWidth_safe text limit

/-- A number of 64 bits has at most 20 digits. -/
theorem width_position (place : Option Json) :
    (Json.optional (place.bind Json.asNat) .nat).width ≤ 20 := by
  refine Json.width_optional (by omega) fun found same => ?_
  obtain ⟨value, -, number⟩ := Option.bind_eq_some_iff.mp same
  exact Json.intWidth_le 20 (by decide) ((asNat_lt number).trans (by decide))

/-- A path is not shortened but has at most 4096 bytes, which may all be escaped. -/
theorem width_location (primary : Option Json) (path : Option String) :
    (Json.optional (locationOf primary path) FindingLocation.toJson).width ≤ 8339 := by
  refine Json.width_optional (by omega) fun location same => ?_
  obtain ⟨text, kept, rfl⟩ := Option.map_eq_some_iff.mp same
  have plain := (Option.filter_eq_some_iff.mp kept).2
  simp only [Bool.and_eq_true, decide_eq_true_eq, bne_iff_ne, Bool.not_eq_true',
    List.any_eq_false] at plain
  obtain ⟨⟨-, short⟩, visible⟩ := plain
  have wide := (Json.textWidth_visible text fun char mem =>
    visible_of_not_control (by simpa using visible char mem)).1
  rw [width_location_eq]
  have startLine := width_position (primary.bind (·.field "start_line"))
  have startColumn := width_position (primary.bind (·.field "start_column"))
  have endLine := width_position (primary.bind (·.field "end_line"))
  have endColumn := width_position (primary.bind (·.field "end_column"))
  dsimp only
  omega

/-- The widest finding leaves room on a page. -/
theorem width_findingOf {value : Json} {sha : String} {index : Nat} (hash : digest sha = .ok ())
    (few : index < 2 ^ 64) :
    (findingOf value sha index).toJson.width ≤ findingPageBytes - 4096 := by
  have whole := width_finding_eq (findingOf value sha index)
  have hash : textWidth (findingOf value sha index).bodySha256 = 64 := textWidth_digest hash
  have number : intWidth (findingOf value sha index).index ≤ 20 :=
    Json.intWidth_le 20 (by decide) (few.trans (by decide))
  have severity : textWidth (findingOf value sha index).severity ≤ 4 * 64 := textWidth_safe _ _
  have code : (Json.optional (findingOf value sha index).code .str).width ≤ 4 * 256 + 2 :=
    width_bounded (by decide)
  have provider : (Json.optional (findingOf value sha index).provider .str).width ≤ 4 * 256 + 2 :=
    width_bounded (by decide)
  have message : textWidth (findingOf value sha index).message ≤ 4 * 8192 := textWidth_safe _ _
  have location : (Json.optional (findingOf value sha index).location
      FindingLocation.toJson).width ≤ 8339 := width_location _ _
  have object : (Json.optional (findingOf value sha index).evidenceObject .str).width ≤
      4 * 512 + 2 := width_bounded (by decide)
  have pointer : (Json.optional (findingOf value sha index).dataPointer .str).width ≤
      4 * 1024 + 2 := width_bounded (by decide)
  have truncated := Json.boolWidth_le (findingOf value sha index).truncated
  unfold findingPageBytes
  omega

/-! ## A page of findings -/

variable {formats : ProducerFormats} {sha : String}

/-- The findings of a document, each with its index. -/
def shownFindings (sha : String) (values : List Json) : List StructuredFinding :=
  values.mapIdx fun index value => findingOf value sha index

theorem takeFindings_cons (charged index : Nat) (value : Json) (rest : List (Nat × Json)) :
    takeFindings sha charged ((index, value) :: rest) =
      if findingPageBytes - 4096 < charged + (findingOf value sha index).toJson.width then []
      else findingOf value sha index ::
        takeFindings sha (charged + (findingOf value sha index).toJson.width) rest := rfl

/-- The page is the beginning of what could be on it. -/
theorem takeFindings_front (charged : Nat) (values : List (Nat × Json)) :
    takeFindings sha charged values <+: values.map fun pair => findingOf pair.2 sha pair.1 := by
  induction values generalizing charged with
  | nil => exact List.nil_prefix
  | cons pair rest inductionHypothesis =>
    obtain ⟨index, value⟩ := pair
    rw [takeFindings_cons, List.map_cons]
    split
    · exact List.nil_prefix
    · exact (List.prefix_cons_inj _).mpr (inductionHypothesis _)

/-- The first finding is always on the page. -/
theorem takeFindings_first {values : List (Nat × Json)} (hash : digest sha = .ok ())
    (few : ∀ pair ∈ values, pair.1 < 2 ^ 64) (some : values ≠ []) :
    takeFindings sha 0 values ≠ [] := by
  cases values with
  | nil => exact absurd rfl some
  | cons pair rest =>
    obtain ⟨index, value⟩ := pair
    have small : index < 2 ^ 64 := few (index, value) (by simp)
    have fits : (findingOf value sha index).toJson.width ≤ findingPageBytes - 4096 :=
      width_findingOf hash small
    have first : ¬ findingPageBytes - 4096 < 0 + (findingOf value sha index).toJson.width := by
      omega
    rw [takeFindings_cons, if_neg first]
    exact List.cons_ne_nil _ _

theorem pageOf_serves {result : StructuredResult} {values : List Json} {offset limit : Nat}
    (hash : digest sha = .ok ()) (few : values.length ≤ 2 ^ 64) (some : 1 ≤ limit)
    (within : offset ≤ values.length) :
    ∃ page, pageOf result sha values offset limit = .ok page ∧ page.result = result ∧
      page.total = values.length ∧
      Page.Serves ⟨page.findings, page.nextOffset, page.more⟩ (shownFindings sha values) offset := by
  have checked : ensure (offset ≤ values.length) "finding offset exceeds result" = .ok () :=
    ensure_eq_ok.mpr (decide_eq_true within)
  have length : (shownFindings sha values).length = values.length := List.length_mapIdx
  have known : ((values.mapIdx Prod.mk).map fun pair => findingOf pair.2 sha pair.1) =
      shownFindings sha values := by
    simp only [shownFindings, List.mapIdx_eq_zipIdx_map, List.map_map, Function.comp_def]
  refine ⟨_, by rw [pageOf, checked]; rfl, rfl, rfl, ?_, rfl, by rw [length], ?_⟩
  · refine (takeFindings_front 0 _).trans ?_
    rw [List.map_take, List.map_drop, known]
    exact List.take_prefix _ _
  · intro before
    apply takeFindings_first hash
    · intro pair mem
      have mem := List.mem_of_mem_drop (List.mem_of_mem_take mem)
      obtain ⟨index, bound, rfl⟩ := List.mem_mapIdx.mp mem
      exact Nat.lt_of_lt_of_le bound few
    · intro empty
      have none_ := congrArg List.length empty
      rw [length] at before
      simp only [List.length_take, List.length_drop, List.length_mapIdx, List.length_nil] at none_
      omega

/-! ## Following the pages -/

/-- The pages of findings that a client gets, each with its own limit and its own answers of the
    file system. -/
def findingPages (formats : ProducerFormats) (answers : Nat → StoreAnswers)
    (bodies : Nat → Bodies) (limits : Nat → Nat) (result : StructuredResult)
    (round offset : Nat) : Option (Page StructuredFinding) :=
  match findingsPage formats (answers round) (bodies round) result offset (limits round) with
  | .ok page => some ⟨page.findings, page.nextOffset, page.more⟩
  | .error _ => none

/-- The same for the raw body. -/
def rawPages (formats : ProducerFormats) (answers : Nat → StoreAnswers)
    (bodies : Nat → Bodies) (limits : Nat → Nat) (result : StructuredResult)
    (round offset : Nat) : Option (Page UInt8) :=
  match rawPage formats (answers round) (bodies round) result offset (limits round) with
  | .ok page => some ⟨page.data, page.nextOffset, !page.eof⟩
  | .error _ => none

variable {answers : Nat → StoreAnswers} {bodies : Nat → Bodies} {limits : Nat → Nat}
  {result : StructuredResult} {bytes : List UInt8}

/-- A stored result names a digest and a document with a list of findings. -/
theorem vouched_findings {bodies : Bodies} {summary : ResultSummary} {body : BodyReference}
    (vouched : Vouched formats bodies result bytes) (summarized : result.summary = some summary)
    (named : result.body = some body) :
    digest body.sha256 = .ok () ∧ ∃ document values, formats.decoder.decode bytes = .ok document ∧
      (document.field "findings").bind Json.asArr = some values ∧ values.length ≤ 2 ^ 64 := by
  obtain ⟨found, same, length, _, path, _, summary⟩ := vouched.reference
  rw [named] at same
  cases same
  constructor
  · obtain ⟨_, _, rest⟩ := bind_eq_ok.mp path
    obtain ⟨_, hash, _⟩ := bind_eq_ok.mp rest
    exact ensure_eq_ok.mpr (ensure_eq_ok.mp hash)
  · obtain ⟨document, decoded, told⟩ := summary _ summarized
    simp only [summarize, bind_eq_ok, ensure_eq_ok, context_eq_ok] at told
    obtain ⟨_, _, _, _, _, _, _, _, _, _, values, listed, _⟩ := told
    obtain ⟨array, field, items⟩ := Option.bind_eq_some_iff.mp listed
    have few := (Json.length_le_size items).trans (Json.size_field_le field)
    have small := formats.decoder.small decoded
    have short := vouched.small
    unfold maxResultBytes at short
    refine ⟨document, values, decoded, listed, ?_⟩
    omega

theorem findingPages_serve {summary : ResultSummary} {body : BodyReference} {document : Json}
    {values : List Json}
    (passes : ∀ round, verified formats (answers round) (bodies round) result =
      (result, some bytes))
    (limited : ∀ round, 1 ≤ limits round ∧ limits round ≤ findingPageItems)
    (summarized : result.summary = some summary) (named : result.body = some body)
    (hash : digest body.sha256 = .ok ()) (decoded : formats.decoder.decode bytes = .ok document)
    (listed : (document.field "findings").bind Json.asArr = some values)
    (few : values.length ≤ 2 ^ 64) {round offset : Nat}
    (within : offset ≤ (shownFindings body.sha256 values).length) :
    ∃ page, findingPages formats answers bodies limits result round offset = some page ∧
      page.Serves (shownFindings body.sha256 values) offset := by
  have within : offset ≤ values.length := by simpa [shownFindings] using within
  obtain ⟨page, served, -, -, serves⟩ :=
    @pageOf_serves _ result _ _ _ hash few (limited round).1 within
  refine ⟨_, ?_, serves⟩
  have checked : ensure (1 ≤ limits round && limits round ≤ findingPageItems)
      "finding page limit must be 1–100" = .ok () := by
    simp [limited round]
  have whole : findingsPage formats (answers round) (bodies round) result offset (limits round) =
      .ok page := by
    rw [findingsPage, checked, passes round]
    dsimp only [bind, Except.bind]
    rw [summarized, named]
    dsimp only
    rw [decoded]
    dsimp only
    rw [listed]
    exact served
  rw [findingPages, whole]

theorem rawPages_serve
    (passes : ∀ round, verified formats (answers round) (bodies round) result =
      (result, some bytes))
    (limited : ∀ round, 1 ≤ limits round ∧ limits round ≤ rawPageBytes)
    {round offset : Nat} (within : offset ≤ bytes.length) :
    ∃ page, rawPages formats answers bodies limits result round offset = some page ∧
      page.Serves bytes offset := by
  have small := (verified_vouches (passes round)).2.small
  have limit := limited round
  unfold maxResultBytes at small
  unfold rawPageBytes at limit
  have sized : ensure (1 ≤ limits round && limits round ≤ rawPageBytes)
      "raw result page limit must be 1–65536" = .ok () := by
    simp [limited round]
  have placed : ensure (offset ≤ bytes.length || bytes.isEmpty)
      "result offset exceeds body length" = .ok () := by
    simp [within]
  have start : min offset bytes.length = offset := Nat.min_eq_left within
  have ending : min (saturatingAdd offset (limits round)) bytes.length =
      min (offset + limits round) bytes.length := by
    unfold saturatingAdd
    omega
  have served : rawPages formats answers bodies limits result round offset = some
      { items := (bytes.drop offset).take (min (offset + limits round) bytes.length - offset)
        next := min (offset + limits round) bytes.length
        more := !(min (offset + limits round) bytes.length == bytes.length) } := by
    simp only [rawPages, rawPage, sized, passes round, Option.getD_some, placed, start, ending,
      List.drop_take, bind, Except.bind, pure, Except.pure]
  have length : ((bytes.drop offset).take
      (min (offset + limits round) bytes.length - offset)).length =
        min (offset + limits round) bytes.length - offset := by
    rw [List.length_take, List.length_drop]
    omega
  refine ⟨_, served, List.take_prefix _ _, ?_, ?_, ?_⟩
  · rw [length]
    dsimp only
    omega
  · by_cases last : min (offset + limits round) bytes.length = bytes.length
    · simp [last]
    · have before : min (offset + limits round) bytes.length < bytes.length := by omega
      simp [last, before]
  · intro before empty
    have none_ := congrArg List.length empty
    rw [length, List.length_nil] at none_
    omega

/-- The pages of the findings are every finding once, in order and with its index, and those of
    the raw body are the body of the reference. -/
structure PagedWhole (formats : ProducerFormats) (answers : Nat → StoreAnswers)
    (bodies : Nat → Bodies) (result : StructuredResult) (bytes : List UInt8) : Prop where
  findings : ∀ summary body limits, result.summary = some summary → result.body = some body →
    (∀ round, 1 ≤ limits round ∧ limits round ≤ findingPageItems) →
      ∃ document values, formats.decoder.decode bytes = .ok document ∧
        (document.field "findings").bind Json.asArr = some values ∧
        (∀ round offset, offset < values.length → ∃ page,
          findingPages formats answers bodies limits result round offset = some page ∧
            page.items ≠ []) ∧
        ∀ fuel, values.length < fuel →
          follow (findingPages formats answers bodies limits result) 0 0 fuel =
            some (values.mapIdx fun index value => findingOf value body.sha256 index)
  raw : ∀ limits, (∀ round, 1 ≤ limits round ∧ limits round ≤ rawPageBytes) →
    ∀ fuel, bytes.length < fuel →
      follow (rawPages formats answers bodies limits result) 0 0 fuel = some bytes
  reference : ∃ body, result.body = some body ∧ bytes.length = body.bytes ∧
    formats.sha256 bytes = body.sha256

/-- Whatever the limits of the pages, a client that follows them comes to the end of a result
    that stays what it was. -/
theorem result_paging_exact
    (passes : ∀ round, verified formats (answers round) (bodies round) result =
      (result, some bytes)) :
    PagedWhole formats answers bodies result bytes where
  findings summary body limits summarized named limited := by
    have vouched := (verified_vouches (passes 0)).2
    obtain ⟨hash, document, values, decoded, listed, few⟩ :=
      vouched_findings vouched summarized named
    have length : (shownFindings body.sha256 values).length = values.length := List.length_mapIdx
    have serve : ∀ round offset, offset ≤ (shownFindings body.sha256 values).length →
        ∃ page, findingPages formats answers bodies limits result round offset = some page ∧
          page.Serves (shownFindings body.sha256 values) offset := fun round offset within =>
      findingPages_serve passes limited summarized named hash decoded listed few within
    refine ⟨document, values, decoded, listed, ?_, ?_⟩
    · intro round offset before
      obtain ⟨page, fetched, serves⟩ := serve round offset (by omega)
      exact ⟨page, fetched, serves.progress (by omega)⟩
    · intro fuel enough
      exact follow_serves serve (Nat.zero_le _) (by omega)
  raw limits limited fuel enough :=
    follow_serves (fun _ _ within => rawPages_serve passes limited within) (Nat.zero_le _)
      (by omega)
  reference := by
    obtain ⟨body, named, length, hash, _⟩ := (verified_vouches (passes 0)).2.reference
    exact ⟨body, named, length, hash⟩

theorem lens_passes : verified lensFormats lensAnswers [(lensBody.named false, lensText)] lensResult =
    (lensResult, some lensText) := by
  decide +kernel

/-- A result with one finding. -/
theorem result_paging_exact_lens :
    PagedWhole lensFormats (fun _ => lensAnswers) (fun _ => [(lensBody.named false, lensText)])
      lensResult lensText :=
  result_paging_exact fun _ => lens_passes

end Idk
