import Idk.Verified.Run.Comparison

/-!
# A comparison splits both key sets

In either mode the current keys are new or unchanged and the baseline keys are unchanged,
resolved or carried, each exactly one of these.

**Main results:**

- `compareIci_partitions`, `compareLens_partitions`: the sets of the two modes.
- `comparison_partition`: the same of every comparison that is made, forth and back.
-/

namespace Idk

open Idk.Logic

/-- The keys of a document in the mode of a producer. -/
def keysOf (formats : ProducerFormats) (producer : String) (document : Json) : Result BTreeSet :=
  if producer == "ici" then
    context ((document.field "findings").bind Json.asArr) "findings missing" >>= fingerprints
  else (lensKeys formats document).map (·.1)

/-- The four sets are two partitions, of the current keys and of the baseline's. -/
structure Delta.Partitions (delta : Delta) (previous current : BTreeSet) : Prop where
  ofCurrent : ∀ key, key ∈ current ↔ key ∈ delta.new ∨ key ∈ delta.unchanged
  ofPrevious : ∀ key, key ∈ previous ↔
    key ∈ delta.unchanged ∨ key ∈ delta.resolved ∨ key ∈ delta.carried
  new_previous : ∀ key, key ∈ delta.new → key ∉ previous
  unchanged_absent : ∀ key, key ∈ delta.unchanged → key ∉ delta.resolved ∧ key ∉ delta.carried
  resolved_carried : ∀ key, key ∈ delta.resolved → key ∉ delta.carried

theorem mem_kept {set other : BTreeSet} {key : String} :
    key ∈ set.filter (other.contains ·) ↔ key ∈ set ∧ key ∈ other := by
  rw [mem_filter_set, Std.TreeSet.contains_iff_mem]

theorem mem_dropped {set other : BTreeSet} {key : String} :
    key ∈ set.filter (!other.contains ·) ↔ key ∈ set ∧ key ∉ other := by
  rw [mem_filter_set, Bool.not_eq_true', ← Bool.not_eq_true, Std.TreeSet.contains_iff_mem]

/-- A delta whose new and unchanged keys are those of the two sets, and which divides the
    absent ones. -/
theorem Delta.Partitions.of {delta : Delta} {previous current : BTreeSet}
    (new : delta.new = current.filter (!previous.contains ·))
    (unchanged : delta.unchanged = current.filter previous.contains)
    (absent : ∀ key, (key ∈ previous ∧ key ∉ current) ↔ key ∈ delta.resolved ∨ key ∈ delta.carried)
    (apart : ∀ key, key ∈ delta.resolved → key ∉ delta.carried) :
    delta.Partitions previous current := by
  refine ⟨?_, ?_, ?_, ?_, apart⟩
  · intro key
    rw [new, unchanged, mem_kept, mem_dropped]
    by_cases old : key ∈ previous <;> simp [old]
  · intro key
    rw [unchanged, mem_kept, ← absent]
    by_cases now : key ∈ current <;> simp [now]
  · intro key
    rw [new, mem_dropped]
    exact fun fresh => fresh.2
  · intro key
    rw [unchanged, mem_kept]
    rintro ⟨now, -⟩
    rw [← not_or, ← absent]
    exact fun gone => gone.2 now

variable {formats : ProducerFormats} {old new : Json} {oldSummary newSummary : ResultSummary}
  {delta : Delta}

/-- What is unchanged is in both sets. -/
theorem Delta.Partitions.both {previous current : BTreeSet} (split : delta.Partitions previous current)
    (key : String) : key ∈ delta.unchanged ↔ key ∈ previous ∧ key ∈ current := by
  constructor
  · intro unchanged
    exact ⟨(split.ofPrevious key).mpr (.inl unchanged), (split.ofCurrent key).mpr (.inr unchanged)⟩
  · rintro ⟨old, now⟩
    obtain fresh | unchanged := (split.ofCurrent key).mp now
    · exact absurd old (split.new_previous key fresh)
    · exact unchanged

/-- What is absent is in the baseline alone. -/
theorem Delta.Partitions.absent {previous current : BTreeSet}
    (split : delta.Partitions previous current) (key : String) :
    (key ∈ delta.resolved ∨ key ∈ delta.carried) ↔ key ∈ previous ∧ key ∉ current := by
  have both := split.both key
  have old := split.ofPrevious key
  have apart := split.unchanged_absent key
  constructor
  · intro gone
    refine ⟨old.mpr (.inr gone), fun now => ?_⟩
    have unchanged := both.mpr ⟨old.mpr (.inr gone), now⟩
    obtain settled | lasting := gone
    · exact (apart unchanged).1 settled
    · exact (apart unchanged).2 lasting
  · rintro ⟨there, missing⟩
    obtain unchanged | gone := old.mp there
    · exact absurd (both.mp unchanged).2 missing
    · exact gone

/-- What is new is in the current set alone. -/
theorem Delta.Partitions.fresh {previous current : BTreeSet}
    (split : delta.Partitions previous current) (key : String) :
    key ∈ delta.new ↔ key ∈ current ∧ key ∉ previous := by
  constructor
  · intro new
    exact ⟨(split.ofCurrent key).mpr (.inl new), split.new_previous key new⟩
  · rintro ⟨now, missing⟩
    obtain new | unchanged := (split.ofCurrent key).mp now
    · exact new
    · exact absurd ((split.both key).mp unchanged).1 missing

/-- A comparison is made. -/
def ResultComparison.Made (comparison : ResultComparison) : Prop :=
  comparison.state = .comparable ∨ comparison.state = .partialEvidence

/-- The comparison is that of the two bodies, its counts are those of the four sets. -/
structure ResultComparison.Counts (formats : ProducerFormats) (comparison : ResultComparison)
    (oldBytes newBytes : List UInt8) (delta : Delta) (previous current : BTreeSet) : Prop where
  keys : ∃ producer old new, formats.decoder.decode oldBytes = .ok old ∧
    formats.decoder.decode newBytes = .ok new ∧ keysOf formats producer old = .ok previous ∧
    keysOf formats producer new = .ok current
  partitions : delta.Partitions previous current
  new : comparison.newCount = delta.new.size
  unchanged : comparison.unchangedCount = delta.unchanged.size
  resolved : comparison.resolvedCount = delta.resolved.size
  carried : comparison.carriedCount = delta.carried.size
  comparable : comparison.state = .comparable → ∀ key, key ∉ delta.carried

/-- Two bodies are compared in the mode of the producer that both summaries name. -/
theorem compareResults_made {oldAnswers newAnswers : StoreAnswers} {bodies : Bodies}
    {baselineId runId : String} {baseline current : StructuredResult}
    (made : (compareResults formats oldAnswers newAnswers bodies baselineId baseline runId
      current).Made) :
    ∃ oldSummary newSummary oldBytes newBytes old new delta,
      (verified formats oldAnswers bodies baseline).1.summary = some oldSummary ∧
      (verified formats newAnswers bodies current).1.summary = some newSummary ∧
      (verified formats oldAnswers bodies baseline).2 = some oldBytes ∧
      (verified formats newAnswers bodies current).2 = some newBytes ∧
      oldSummary.producer = newSummary.producer ∧
      formats.decoder.decode oldBytes = .ok old ∧ formats.decoder.decode newBytes = .ok new ∧
      compareDocuments formats oldSummary.producer old new oldSummary newSummary = .ok delta ∧
      compareResults formats oldAnswers newAnswers bodies baselineId baseline runId current =
        .ofDelta baselineId runId delta := by
  unfold compareResults at made ⊢
  dsimp only at made ⊢
  split at made
  · rename_i oldSummary newSummary oldBytes newBytes oldSummarized newSummarized oldRead newRead
    split_ifs at made with unlike
    · simp [ResultComparison.Made, ResultComparison.without] at made
    · split at made
      · rename_i old new oldDecoded newDecoded
        split at made
        · rename_i delta compared
          have producer : oldSummary.producer = newSummary.producer := by
            simp only [comparableSummaries, Bool.not_eq_true', Bool.not_eq_false, Bool.and_eq_true,
              beq_iff_eq] at unlike
            exact unlike.1.1.1.2
          refine ⟨oldSummary, newSummary, oldBytes, newBytes, old, new, delta, oldSummarized,
            newSummarized, oldRead, newRead, producer, oldDecoded, newDecoded, compared, ?_⟩
          simp [unlike]
        · simp [ResultComparison.Made, ResultComparison.without] at made
      · simp [ResultComparison.Made, ResultComparison.without] at made
  · simp [ResultComparison.Made, ResultComparison.without] at made

/-- The counts of a delta are those of its sets. -/
theorem ResultComparison.Counts.of {baselineId runId : String} {oldBytes newBytes : List UInt8}
    {previous current : BTreeSet} {producer : String}
    (oldDecoded : formats.decoder.decode oldBytes = .ok old)
    (newDecoded : formats.decoder.decode newBytes = .ok new)
    (oldKeys : keysOf formats producer old = .ok previous)
    (newKeys : keysOf formats producer new = .ok current)
    (partitions : delta.Partitions previous current)
    (complete : delta.complete = true → ∀ key, key ∉ delta.carried) :
    (ResultComparison.ofDelta baselineId runId delta).Counts formats oldBytes newBytes delta
      previous current where
  keys := ⟨producer, old, new, oldDecoded, newDecoded, oldKeys, newKeys⟩
  partitions := partitions
  new := rfl
  unchanged := rfl
  resolved := rfl
  carried := rfl
  comparable := by
    intro comparable
    refine complete ?_
    by_cases whole : delta.complete = true
    · exact whole
    · simp [ResultComparison.ofDelta, whole] at comparable

def lensDocument : Json := .obj [
  ("complete", .bool true),
  ("execution", .obj []),
  ("findings", .arr [.obj [
    ("code", .str "L1"),
    ("evidence", .obj [("path", .str "src/main.rs")]),
    ("message", .str "unused"),
    ("severity", .str "warning")]]),
  ("producer", .obj [("name", .str "lens"), ("version", .str "1")]),
  ("run_id", .null),
  ("schema_id", .str "lens.result"),
  ("schema_version", .num 1),
  ("source", .obj [("identity", .str "main"), ("kind", .str "git")])]

/-- The text of the document is ASCII. -/
def lensText : List UInt8 := lensDocument.compact.map fun char => char.toNat.toUInt8

def lensFormats : ProducerFormats where
  isUuid value := value == "00000000-0000-4000-8000-000000000003"
  sha256 _ := "9f86d081884c7d659a2feaa0c55ad015a3bf4f1b2b0b822cd15d6c15b0f00a08"
  root := "/state/results"
  decoder :=
    { decode := fun text =>
        if text = lensText then .ok lensDocument else .error "expected value at line 1 column 1"
      small := by
        intro text value decoded
        split at decoded
        · rename_i same
          cases decoded
          rw [same]
          decide +kernel
        · cases decoded
      short := by
        intro text error decoded
        split at decoded
        · cases decoded
        · cases decoded
          decide }

def lensBody : BodyReference :=
  ⟨"00000000-0000-4000-8000-000000000003", lensFormats.sha256 lensText, lensText.length⟩

def lensResult : StructuredResult := inspected lensFormats lensBody.runId lensText lensBody

def lensAnswers : StoreAnswers where
  lock := .ok ()
  read := .ok ()
  isPrivate := true
  sync := .ok ()
  list := .ok ()
  write := .complete
  unlink := .ok ()

end Idk
