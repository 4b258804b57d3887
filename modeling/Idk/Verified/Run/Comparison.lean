import Idk.Run.Comparison

/-!
# What a comparison may call resolved

A baseline finding is settled when the baseline checks it may come from are known and all
of them were completed again.

**Main result:** `resolution_conservative_iff`: exactly which comparisons call a
fingerprint resolved only when every finding that carries it is settled.
-/

namespace Idk

open Idk.Logic

/-! ## What the two documents say -/

def findingsOf (document : Json) : List Json :=
  ((document.field "findings").bind Json.asArr).getD []

def checksOf (document : Json) : List Json := ((document.field "checks").bind Json.asArr).getD []

/-- A finding of the document has this fingerprint. -/
def Carries (document : Json) (print : String) (finding : Json) : Prop :=
  finding ∈ findingsOf document ∧ fingerprint finding = .ok print

/-- The fingerprint is in the baseline and not in the current result. -/
def Absent (old new : Json) (print : String) : Prop :=
  (∃ finding, Carries old print finding) ∧ ¬ ∃ finding, Carries new print finding

/-- Both results are complete and neither was cancelled. -/
structure Concluded (old new : Json) (oldSummary newSummary : ResultSummary) : Prop where
  completed : oldSummary.complete = some true ∧ newSummary.complete = some true
  uncancelled : cancelled old = some false ∧ cancelled new = some false

variable (formats : ProducerFormats)

/-- The check is fully identified and was completed successfully in the current result. -/
def CompletedIn (new check : Json) : Prop :=
  ∃ key, checkKey formats check = some key ∧
    ∃ other ∈ checksOf new, succeeded other = true ∧ checkKey formats other = some key

structure Settled (old new finding : Json) : Prop where
  known : ∃ check ∈ checksOf old, matching check finding = true
  completed : ∀ check ∈ checksOf old, matching check finding = true → CompletedIn formats new check

/-- The fingerprint may be called resolved. -/
structure Gone (old new : Json) (oldSummary newSummary : ResultSummary) (print : String) :
    Prop where
  concluded : Concluded old new oldSummary newSummary
  settled : ∀ finding, Carries old print finding → Settled formats old new finding

variable {formats} {old new : Json} {oldSummary newSummary : ResultSummary} {delta : Delta}

/-! ## The sets of `compare_ici` -/

theorem mapM_ok {α β : Type} {f : α → Result β} {list : List α} {values : List β}
    (mapped : list.mapM f = .ok values) (value : β) :
    value ∈ values ↔ ∃ element ∈ list, f element = .ok value := by
  induction list generalizing values with
  | nil =>
    cases mapped
    simp
  | cons head rest inductionHypothesis =>
    rw [List.mapM_cons] at mapped
    obtain ⟨first, found, others⟩ := bind_eq_ok.mp mapped
    obtain ⟨tail, mappedTail, finished⟩ := bind_eq_ok.mp others
    cases finished
    simp [inductionHypothesis mappedTail, found, eq_comm]

theorem mem_fingerprints {findings : List Json} {set : BTreeSet}
    (found : fingerprints findings = .ok set) (print : String) :
    print ∈ set ↔ ∃ finding ∈ findings, fingerprint finding = .ok print := by
  obtain ⟨prints, mapped, finished⟩ := bind_eq_ok.mp found
  cases finished
  rw [Std.TreeSet.mem_ofList, List.contains_iff_mem]
  exact mapM_ok mapped print

theorem mem_filter_set {set : BTreeSet} {keep : String → Bool} {value : String} :
    value ∈ set.filter keep ↔ value ∈ set ∧ keep value = true := by
  rw [Std.TreeSet.mem_filter]
  constructor
  · rintro ⟨member, kept⟩
    exact ⟨member, by simpa using kept⟩
  · rintro ⟨member, kept⟩
    exact ⟨member, by simpa using kept⟩

theorem settles_iff {finding : Json} :
    settles formats (checksOf old) (completedKeys formats (checksOf new)) finding = true ↔
      Settled formats old new finding := by
  have completed (check : Json) :
      (checkKey formats check).any ((completedKeys formats (checksOf new)).contains ·) = true ↔
        CompletedIn formats new check := by
    simp only [Option.any_eq_true, Std.TreeSet.contains_iff_mem, completedKeys,
      Std.TreeSet.mem_ofList, List.contains_iff_mem, List.mem_filterMap, List.mem_filter, CompletedIn,
      and_assoc]
  simp only [settles, Bool.and_eq_true, List.all_eq_true, completed, List.mem_filter]
  constructor
  · rintro ⟨some_, all⟩
    refine ⟨?_, fun check member fits => all check ⟨member, fits⟩⟩
    simpa using some_
  · rintro ⟨known, all⟩
    exact ⟨by simpa using known, fun check member => all check member.1 member.2⟩

theorem mem_resolved {current completed start last : BTreeSet} {oldChecks findings : List Json}
    (folded : findings.foldlM (resolveFinding formats oldChecks completed current) start =
      .ok last) (print : String) :
    print ∈ last ↔ print ∈ start ∨ print ∉ current ∧ ∃ finding ∈ findings,
      fingerprint finding = .ok print ∧ settles formats oldChecks completed finding = true := by
  induction findings generalizing start with
  | nil =>
    cases folded
    simp
  | cons finding rest inductionHypothesis =>
    rw [List.foldlM_cons] at folded
    obtain ⟨middle, round, folded⟩ := bind_eq_ok.mp folded
    obtain ⟨own, named, round⟩ := bind_eq_ok.mp round
    rw [inductionHypothesis folded]
    simp only [List.mem_cons, exists_eq_or_imp, named, Except.ok.injEq]
    split at round
    · rename_i here
      cases round
      have listed : own ∈ current := by simpa using here
      grind
    · rename_i absent
      have unlisted : own ∉ current := by simpa using absent
      split at round
      · cases round
        rw [Std.TreeSet.mem_insert, Std.LawfulEqCmp.compare_eq_iff_eq]
        grind
      · cases round
        grind

/-- The loop goes through when all findings are named. -/
theorem resolveAll_total {formats : ProducerFormats} {complete : Bool}
    {oldChecks findings : List Json} {completed current : BTreeSet}
    (named : ∀ finding ∈ findings, ∃ print, fingerprint finding = .ok print) :
    ∃ resolved, resolveAll formats complete oldChecks completed current findings = .ok resolved := by
  have folds : ∀ start : BTreeSet, ∃ resolved, findings.foldlM
      (resolveFinding formats oldChecks completed current) start = .ok resolved := by
    induction findings with
    | nil => exact fun start => ⟨start, rfl⟩
    | cons finding rest inductionHypothesis =>
      intro start
      obtain ⟨print, own⟩ := named finding List.mem_cons_self
      have round : ∃ middle, resolveFinding formats oldChecks completed current start finding =
          .ok middle := by
        simp only [resolveFinding, own, bind, Except.bind]
        split
        · exact ⟨_, rfl⟩
        · split
          · exact ⟨_, rfl⟩
          · exact ⟨_, rfl⟩
      obtain ⟨middle, round⟩ := round
      rw [List.foldlM_cons, round]
      exact inductionHypothesis (fun finding member => named finding (List.mem_cons_of_mem _ member))
        middle
  unfold resolveAll
  split
  · exact folds ∅
  · exact ⟨∅, rfl⟩

/-- The two sets that a comparison makes of the absent fingerprints. -/
theorem compareIci_sets (compared : compareIci formats old new oldSummary newSummary = .ok delta)
    (print : String) :
    (print ∈ delta.resolved ↔ Concluded old new oldSummary newSummary ∧
      (¬ ∃ finding, Carries new print finding) ∧
      ∃ finding, Carries old print finding ∧ Settled formats old new finding) ∧
    (print ∈ delta.carried ↔ Absent old new print ∧ print ∉ delta.resolved) := by
  simp only [compareIci, bind_eq_ok, context_eq_ok] at compared
  obtain ⟨_, _, _, _, _, _, _, _, _, _, oldChecks, oldScope, newChecks, newScope, oldFindings,
    oldListed, newFindings, newListed, previous, before, current, now, resolved, folded,
    finished⟩ := compared
  cases finished
  have oldChecks_eq : checksOf old = oldChecks := by simp [checksOf, oldScope]
  have newChecks_eq : checksOf new = newChecks := by simp [checksOf, newScope]
  have inOld : print ∈ previous ↔ ∃ finding, Carries old print finding := by
    simp [mem_fingerprints before, Carries, findingsOf, oldListed]
  have inNew : print ∈ current ↔ ∃ finding, Carries new print finding := by
    simp [mem_fingerprints now, Carries, findingsOf, newListed]
  refine ⟨?_, ?_⟩
  · have whole : (oldSummary.complete == some true && newSummary.complete == some true &&
        cancelled old == some false && cancelled new == some false) = true ↔
        Concluded old new oldSummary newSummary := by
      simp only [Bool.and_eq_true, beq_iff_eq]
      constructor
      · rintro ⟨⟨⟨a, b⟩, c⟩, d⟩
        exact ⟨⟨a, b⟩, c, d⟩
      · rintro ⟨⟨a, b⟩, c, d⟩
        exact ⟨⟨⟨a, b⟩, c⟩, d⟩
    unfold resolveAll at folded
    split at folded
    · rename_i concluded
      rw [← inNew, mem_resolved folded, ← oldChecks_eq, ← newChecks_eq]
      simp only [settles_iff, whole.mp concluded, true_and, Carries, findingsOf, oldListed,
        Option.getD_some, and_assoc]
      simp
    · rename_i open_
      cases folded
      have unconcluded : ¬ Concluded old new oldSummary newSummary := fun holds =>
        open_ (whole.mpr holds)
      simp [unconcluded]
  · rw [mem_filter_set, mem_filter_set, inOld]
    simp only [Absent, ← inNew, ← Std.TreeSet.contains_iff_mem, Bool.not_eq_true',
      Bool.not_eq_true]

/-- A comparison is conservative exactly when, with both results concluded, the baseline
    findings of an absent fingerprint are settled all or none. -/
theorem resolution_conservative_iff
    (compared : compareIci formats old new oldSummary newSummary = .ok delta) :
    (∀ print, Absent old new print →
      (print ∈ delta.resolved → Gone formats old new oldSummary newSummary print) ∧
      (¬ Gone formats old new oldSummary newSummary print → print ∈ delta.carried)) ↔
    (Concluded old new oldSummary newSummary → ∀ print, Absent old new print →
      ∀ left right, Carries old print left → Carries old print right →
        Settled formats old new left → Settled formats old new right) := by
  constructor
  · intro conservative concluded print absent left right carries other settled
    have resolved := (compareIci_sets compared print).1.mpr
      ⟨concluded, absent.2, left, carries, settled⟩
    exact ((conservative print absent).1 resolved).settled right other
  · intro uniform print absent
    obtain ⟨inResolved, inCarried⟩ := compareIci_sets compared print
    have gone : print ∈ delta.resolved → Gone formats old new oldSummary newSummary print := by
      intro resolved
      obtain ⟨concluded, _, finding, carries, settled⟩ := inResolved.mp resolved
      exact ⟨concluded, fun other also => uniform concluded print absent finding other carries
        also settled⟩
    exact ⟨gone, fun lasting => inCarried.mpr ⟨absent, fun resolved => lasting (gone resolved)⟩⟩

/-! ## Two findings with one fingerprint -/

def sampleScope : String := "4f53cda18c2baa0c0354bb5f9a3ecbe5ed12ab4d8e11ba873c2f11161202b945"

/-- The hashes of the two check identities below. -/
def sampleFormats : ProducerFormats where
  isUuid _ := true
  sha256 text :=
    if text.length == 107 then
      "8ecb6108a26ea0cea0aac60278a3be81ff9512786777835f47a674c765629a27"
    else "2b227161088706264c69c1bf96c16ab33f6de3483c28c7f8359eeba9cb5952ef"
  root := "/state"
  decoder := {
    decode := fun _ => .error "expected value at line 1 column 1"
    small := fun decoded => nomatch decoded
    short := fun decoded => by cases decoded; decide }

def sampleCheck (task state : String) : Json := .obj [
  ("task_id", .str task), ("check_id", .str "style"), ("component_id", .str "core"),
  ("language", .str "rust"), ("scope_digest", .str sampleScope), ("state", .str state),
  ("evidence_complete", .bool true)]

/-- What the task found in the component. -/
def sampleFinding (task : String) : Json := .obj [
  ("fingerprint", .str "unused-import"), ("task_id", .str task), ("component_id", .str "core")]

def sampleDocument (checks findings : List Json) : Json := .obj [
  ("identity", .obj [("fingerprint_version", .str "ici.next.fingerprint.v3"),
    ("policy_digest", .str sampleScope), ("toolchain_digest", .str sampleScope)]),
  ("execution", .obj [("cancelled", .bool false)]),
  ("checks", .arr checks), ("findings", .arr findings)]

def sampleSummary (count : Nat) : ResultSummary where
  schemaId := "ici.next.run"
  schemaVersion := 2
  producer := "ici"
  producerVersion := "3.0.0"
  producerRunId := none
  findingsCount := count
  complete := some true
  selectedGate := none
  workspaceGate := none
  scopeKind := none
  identityDigest := sampleScope
  scopeDigest := sampleScope

/-- Two tasks found the same. -/
def sampleBaseline : Json :=
  sampleDocument [sampleCheck "lint" "SUCCEEDED", sampleCheck "audit" "SUCCEEDED"]
    [sampleFinding "lint", sampleFinding "audit"]

/-- Only one of the two tasks was completed again. -/
def sampleCurrent : Json :=
  sampleDocument [sampleCheck "lint" "SUCCEEDED", sampleCheck "audit" "FAILED"] []

theorem sample_compared :
    ∃ delta, compareIci sampleFormats sampleBaseline sampleCurrent (sampleSummary 2)
      (sampleSummary 0) = .ok delta := by
  have text (document : Json) (key : String) (known : document.pointer ["identity", key] =
      some (.str sampleScope)) : producerText document ["identity", key] = .ok sampleScope := by
    simp only [producerText, known]
    rfl
  have print (task : String) : fingerprint (sampleFinding task) = .ok "unused-import" := rfl
  obtain ⟨before, previous⟩ : ∃ set,
      fingerprints [sampleFinding "lint", sampleFinding "audit"] = .ok set := ⟨_, rfl⟩
  have named : ∀ finding ∈ [sampleFinding "lint", sampleFinding "audit"],
      ∃ print, fingerprint finding = .ok print := by
    intro finding member
    simp only [List.mem_cons, List.not_mem_nil, or_false] at member
    obtain rfl | rfl := member
    · exact ⟨_, print _⟩
    · exact ⟨_, print _⟩
  have version : (sampleBaseline.pointer ["identity", "fingerprint_version"]).bind Json.asStr =
      some "ici.next.fingerprint.v3" := rfl
  have oldChecks : (sampleBaseline.field "checks").bind Json.asArr = some (checksOf sampleBaseline) :=
    rfl
  have newChecks : (sampleCurrent.field "checks").bind Json.asArr = some (checksOf sampleCurrent) :=
    rfl
  have oldFindings : (sampleBaseline.field "findings").bind Json.asArr =
      some [sampleFinding "lint", sampleFinding "audit"] := rfl
  have newFindings : (sampleCurrent.field "findings").bind Json.asArr = some [] := rfl
  obtain ⟨current, nothing⟩ : ∃ set, fingerprints [] = .ok set := ⟨_, rfl⟩
  obtain ⟨resolved, done⟩ := @resolveAll_total sampleFormats
    ((sampleSummary 2).complete == some true && (sampleSummary 0).complete == some true &&
      cancelled sampleBaseline == some false && cancelled sampleCurrent == some false)
    (checksOf sampleBaseline) _ (completedKeys sampleFormats (checksOf sampleCurrent)) current named
  refine ⟨_, bind_eq_ok.mpr ⟨(), ?_, bind_eq_ok.mpr ⟨_, text sampleBaseline "policy_digest" rfl,
    bind_eq_ok.mpr ⟨_, text sampleCurrent "policy_digest" rfl,
    bind_eq_ok.mpr ⟨_, text sampleBaseline "toolchain_digest" rfl,
    bind_eq_ok.mpr ⟨_, text sampleCurrent "toolchain_digest" rfl,
    bind_eq_ok.mpr ⟨_, context_eq_ok.mpr oldChecks, bind_eq_ok.mpr ⟨_, context_eq_ok.mpr newChecks,
    bind_eq_ok.mpr ⟨_, context_eq_ok.mpr oldFindings,
    bind_eq_ok.mpr ⟨_, context_eq_ok.mpr newFindings, bind_eq_ok.mpr ⟨before, previous,
    bind_eq_ok.mpr ⟨current, nothing, bind_eq_ok.mpr ⟨resolved, done, rfl⟩⟩⟩⟩⟩⟩⟩⟩⟩⟩⟩⟩⟩
  rw [version]
  rfl
theorem length_toList (bytes : ByteArray) : bytes.toList.length = bytes.size := by
  have loops : ∀ (left index : Nat) (read : List UInt8), left = bytes.size - index →
      (ByteArray.toList.loop bytes index read).length = left + read.length := by
    intro left
    induction left with
    | zero =>
      intro index read ended
      rw [ByteArray.toList.loop, if_neg (by omega), List.length_reverse, Nat.zero_add]
    | succ left inductionHypothesis =>
      intro index read room
      rw [ByteArray.toList.loop, if_pos (by omega), inductionHypothesis (index + 1) _ (by omega)]
      simp only [List.length_cons]
      omega
  exact loops bytes.size 0 [] rfl

/-- The identity of a sample check. -/
def sampleIdentity (task : String) : Json := .arr
  [.str task, .str "style", .str "core", .str "rust", .str sampleScope, .null, .null]

theorem sampleCheck_key (task state : String) (named : task.isEmpty = false) :
    checkKey sampleFormats (sampleCheck task state) =
      some (jsonDigest sampleFormats (sampleIdentity task)) := by
  have name : checkName (sampleCheck task state) "task_id" = some (.str task) := by
    have field : (sampleCheck task state).field "task_id" = some (.str task) := rfl
    simp only [checkName, field, Json.asStr, Option.bind_eq_bind, Option.bind_some, named]
    rfl
  have others : ["check_id", "component_id", "language", "scope_digest"].mapM
      (checkName (sampleCheck task state)) =
      some [.str "style", .str "core", .str "rust", .str sampleScope] := rfl
  simp only [checkKey, List.mapM_cons, name] at others ⊢
  rw [others]
  rfl

theorem sampleKeys_differ : jsonDigest sampleFormats (sampleIdentity "audit") ≠
    jsonDigest sampleFormats (sampleIdentity "lint") := by
  simp only [jsonDigest, sampleFormats, length_toList, String.size_toByteArray,
    Json.utf8ByteSize_encode]
  decide

theorem sampleBaseline_checks : checksOf sampleBaseline =
    [sampleCheck "lint" "SUCCEEDED", sampleCheck "audit" "SUCCEEDED"] := rfl

theorem sampleCurrent_checks : checksOf sampleCurrent =
    [sampleCheck "lint" "SUCCEEDED", sampleCheck "audit" "FAILED"] := rfl

theorem sample_settles :
    Settled sampleFormats sampleBaseline sampleCurrent (sampleFinding "lint") ∧
      ¬ Settled sampleFormats sampleBaseline sampleCurrent (sampleFinding "audit") := by
  have lint (state : String) := sampleCheck_key "lint" state (by decide)
  have audit (state : String) := sampleCheck_key "audit" state (by decide)
  constructor
  · refine ⟨⟨_, List.mem_cons_self, rfl⟩, fun check listed fits => ?_⟩
    simp only [sampleBaseline_checks, List.mem_cons, List.not_mem_nil, or_false] at listed
    obtain rfl | rfl := listed
    · exact ⟨_, lint _, _, List.mem_cons_self, rfl, lint _⟩
    · cases fits
  · intro settled
    obtain ⟨key, keyed, other, listed, done, same⟩ := settled.completed
      (sampleCheck "audit" "SUCCEEDED") (List.mem_cons_of_mem _ List.mem_cons_self) rfl
    cases (audit _).symm.trans keyed
    simp only [sampleCurrent_checks, List.mem_cons, List.not_mem_nil, or_false] at listed
    obtain rfl | rfl := listed
    · exact sampleKeys_differ (Option.some.inj (same.symm.trans (lint _)))
    · cases done

theorem sample_carries :
    (∀ task ∈ ["lint", "audit"], Carries sampleBaseline "unused-import" (sampleFinding task)) ∧
      ∀ print finding, ¬ Carries sampleCurrent print finding := by
  constructor
  · intro task listed
    refine ⟨?_, rfl⟩
    simp only [List.mem_cons, List.not_mem_nil, or_false] at listed
    obtain rfl | rfl := listed
    · exact List.mem_cons_self
    · exact List.mem_cons_of_mem _ List.mem_cons_self
  · intro print finding carries
    exact List.not_mem_nil carries.1

theorem sample_concluded :
    Concluded sampleBaseline sampleCurrent (sampleSummary 2) (sampleSummary 0) :=
  ⟨⟨rfl, rfl⟩, rfl, rfl⟩

theorem sample_conservative_iff :
    ∃ delta, compareIci sampleFormats sampleBaseline sampleCurrent (sampleSummary 2)
      (sampleSummary 0) = .ok delta ∧
    ((∀ print, Absent sampleBaseline sampleCurrent print →
      (print ∈ delta.resolved →
        Gone sampleFormats sampleBaseline sampleCurrent (sampleSummary 2) (sampleSummary 0) print) ∧
      (¬ Gone sampleFormats sampleBaseline sampleCurrent (sampleSummary 2) (sampleSummary 0) print →
        print ∈ delta.carried)) ↔
    (Concluded sampleBaseline sampleCurrent (sampleSummary 2) (sampleSummary 0) →
      ∀ print, Absent sampleBaseline sampleCurrent print →
      ∀ left right, Carries sampleBaseline print left → Carries sampleBaseline print right →
        Settled sampleFormats sampleBaseline sampleCurrent left →
        Settled sampleFormats sampleBaseline sampleCurrent right)) := by
  obtain ⟨delta, compared⟩ := sample_compared
  exact ⟨delta, compared, resolution_conservative_iff compared⟩

/-- The fingerprint that both tasks found is called resolved when one of them has finished. -/
theorem resolves_unfinished :
    ¬ ∀ (formats : ProducerFormats) (old new : Json) (oldSummary newSummary : ResultSummary)
      (delta : Delta), compareIci formats old new oldSummary newSummary = .ok delta →
      ∀ print, Absent old new print →
        (print ∈ delta.resolved → Gone formats old new oldSummary newSummary print) ∧
        (¬ Gone formats old new oldSummary newSummary print → print ∈ delta.carried) := by
  intro conservative
  obtain ⟨delta, compared⟩ := sample_compared
  have lint := sample_carries.1 "lint" (by simp)
  have audit := sample_carries.1 "audit" (by simp)
  have absent : Absent sampleBaseline sampleCurrent "unused-import" :=
    ⟨⟨_, lint⟩, fun ⟨finding, carries⟩ => sample_carries.2 _ finding carries⟩
  have resolved := (compareIci_sets compared "unused-import").1.mpr
    ⟨sample_concluded, absent.2, _, lint, sample_settles.1⟩
  have gone := (conservative _ _ _ _ _ delta compared _ absent).1 resolved
  exact sample_settles.2 (gone.settled _ audit)

end Idk
