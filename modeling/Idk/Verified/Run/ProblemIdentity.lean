import Idk.Verified.Run.Diagnostics
import Mathlib.Data.List.Nodup
import Mathlib.Data.List.Perm.Subperm
import Mathlib.Tactic.SplitIfs

/-!
# The identity of a problem

A problem is known by its id, a hash of its place in the log and of its message.  No two
problems have one place, and what the complete lines of a log report stays when it grows.

**Main results:**

- `owned_keeps`: the place of a problem is that of a line of its own.
- `problem_identity_exact`: ids are unique and stay; a look-up finds the problem that was shown.
-/

namespace Idk

open ProblemParser

variable {sha256 : List UInt8 → String} {run : RunInfo} {patterns : Patterns}

/-- What stays of a problem: all of it but the details. -/
def Problem.identity (problem : Problem) : Problem := { problem with details := [] }

namespace Diagnostics

/-! ## Places -/

/-- The places of the problems, and of the lines that wait for another one. -/
def places (found : Diagnostics) : List Nat :=
  found.problems.map (·.logOffset) ++
    (found.pythonFrame.toList.map (·.offset) ++ found.uicError.toList.map (·.offset))

/-- Every place is that of another line before `bound`, and makes the id. -/
structure Owned (sha256 : List UInt8 → String) (run : RunInfo) (bound : Nat)
    (found : Diagnostics) : Prop where
  distinct : found.places.Nodup
  before : ∀ place ∈ found.places, place < bound
  ids : ∀ problem ∈ found.problems, problem.id =
    sha256 (hashed run.runId run.log.generation problem.logOffset problem.message)

/-- Behind a line there are no places but those before it and its own. -/
theorem Owned.next {offset : Nat} {found last : Diagnostics}
    (owned : Owned sha256 run offset found) (fewer : last.places.Subperm (offset :: found.places))
    (ids : ∀ problem ∈ last.problems, problem.id =
      sha256 (hashed run.runId run.log.generation problem.logOffset problem.message)) :
    Owned sha256 run (offset + 1) last where
  distinct := by
    have other : offset ∉ found.places := fun mem => Nat.lt_irrefl _ (owned.before offset mem)
    obtain ⟨same, perm, sublist⟩ := fewer
    exact perm.nodup_iff.mp ((List.nodup_cons.mpr ⟨other, owned.distinct⟩).sublist sublist)
  before place mem := by
    obtain rfl | old := List.mem_cons.mp (fewer.subset mem)
    · exact Nat.lt_succ_self _
    · exact Nat.lt_succ_of_lt (owned.before place old)
  ids := ids

/-- A line takes its own place, or one that was waiting. -/
theorem Source.places {found : Diagnostics} {offset place : Nat} {frame : Option PythonFrame}
    {error : Option UicError} (source : Source found offset place frame error) :
    (place :: (found.problems.map (·.logOffset) ++ (frame.toList.map (·.offset) ++
      error.toList.map (·.offset)))).Subperm (offset :: found.places) := by
  cases source with
  | line => exact List.Subperm.refl _
  | frame waits =>
    refine List.Subperm.trans (List.Perm.subperm ?_) (List.sublist_cons_self _ _).subperm
    rw [Diagnostics.places, waits]
    exact List.perm_middle.symm
  | uic waits =>
    refine List.Subperm.trans (List.Perm.subperm ?_) (List.sublist_cons_self _ _).subperm
    rw [Diagnostics.places, waits]
    simp only [Option.toList_none, List.map_nil, List.append_nil, Option.toList_some,
      List.map_cons, ← List.append_assoc]
    exact (List.perm_append_singleton _ _).symm

theorem map_set_same {α : Type} {problems : List Problem} {index : Nat} {problem : Problem}
    (field : Problem → α) {details : List String} (there : problems[index]? = some problem)
    (same : field { problem with details := details } = field problem) :
    (problems.set index { problem with details := details }).map field = problems.map field := by
  induction problems generalizing index with
  | nil => cases there
  | cons first rest inductionHypothesis =>
    cases index with
    | zero =>
      cases there
      simp only [List.set_cons_zero, List.map_cons, same]
    | succ index => simp only [List.set_cons_succ, List.map_cons, inductionHypothesis there]

theorem Owned.parsed {found last : Diagnostics} {offset : Nat}
    (owned : Owned sha256 run offset found) (parsed : Parsed sha256 run found offset last) :
    Owned sha256 run (offset + 1) last := by
  cases parsed with
  | moved => exact owned.next (List.sublist_cons_self _ _).subperm owned.ids
  | frame frame last own =>
    refine owned.next ?_ owned.ids
    -- the frame that waited is given up, and the line waits if it is one
    have kept : (found.problems.map (·.logOffset) ++
        found.uicError.toList.map (·.offset)).Sublist found.places :=
      (List.Sublist.refl _).append (List.sublist_append_right _ _)
    cases frame with
    | none => exact (kept.trans (List.sublist_cons_self _ _)).subperm
    | some waiting =>
      have own : waiting.offset = offset := own waiting rfl
      refine List.Subperm.trans (List.Perm.subperm ?_) (kept.cons_cons offset).subperm
      rw [← own]
      exact List.perm_middle
  | uic error own =>
    refine owned.next ?_ owned.ids
    have kept : (found.problems.map (·.logOffset) ++
        found.pythonFrame.toList.map (·.offset)).Sublist found.places :=
      (List.Sublist.refl _).append (List.sublist_append_left _ _)
    cases error with
    | none =>
      refine (List.Sublist.trans ?_ (List.sublist_cons_self offset _)).subperm
      rw [Diagnostics.places, Option.toList_none, List.map_nil, List.append_nil]
      exact kept
    | some waiting =>
      have own : waiting.offset = offset := own waiting rfl
      refine List.Subperm.trans (List.Perm.subperm ?_) (kept.cons_cons offset).subperm
      rw [← own, Diagnostics.places, ← List.append_assoc]
      exact List.perm_append_singleton _ _
  | @detail index problem detail there few room =>
    refine owned.next ?_ ?_
    · have same := @map_set_same _ _ _ _ Problem.logOffset (problem.details ++ [detail]) there rfl
      rw [Diagnostics.places, same]
      exact (List.sublist_cons_self _ _).subperm
    · intro other mem
      obtain old | rfl := List.mem_or_eq_of_mem_set mem
      · exact owned.ids other old
      · exact owned.ids problem (List.mem_of_getElem? there)
  | added source fresh few room =>
    refine owned.next (List.Subperm.trans (List.Perm.subperm ?_) source.places) ?_
    · rw [Diagnostics.places, List.map_append, List.append_assoc]
      exact List.perm_middle
    · intro other mem
      obtain old | new := List.mem_append.mp mem
      · exact owned.ids other old
      · cases List.mem_singleton.mp new
        exact fresh.id
  | full source =>
    exact owned.next ((List.sublist_cons_self _ _).subperm.trans source.places) owned.ids

theorem Owned.fewer {bound next : Nat} {found last : Diagnostics}
    (owned : Owned sha256 run bound found) (fewer : last.places.Sublist found.places)
    (same : last.problems = found.problems) (later : bound ≤ next) :
    Owned sha256 run next last where
  distinct := owned.distinct.sublist fewer
  before place mem := Nat.lt_of_lt_of_le (owned.before place (fewer.subset mem)) later
  ids := same ▸ owned.ids

theorem owned_keeps (sha256 : List UInt8 → String) (patterns : Patterns) (run : RunInfo) :
    Keeps (diagnosticGrammar sha256 patterns run) (Owned sha256 run) where
  parse _ _ _ owned := owned.parsed parseLine_parsed
  discard _ found owned := by
    have fewer : found.discard.places.Sublist found.places := by
      simp [Diagnostics.places, discard]
    exact owned.fewer fewer rfl (Nat.le_refl _)
  later _ _ _ owned later := owned.fewer (List.Sublist.refl _) rfl later

theorem owned_empty : Owned sha256 run 0 .empty where
  distinct := List.nodup_nil
  before := nofun
  ids := nofun

/-! ## Growth -/

/-- Problems are added behind the others, and only details are added to one. -/
def Grows (found last : Diagnostics) : Prop :=
  found.problems.map Problem.identity <+: last.problems.map Problem.identity

theorem Parsed.grows {found last : Diagnostics} {offset : Nat}
    (parsed : Parsed sha256 run found offset last) :
    Grows found last ∧ last.problems.length ≤ found.problems.length + 1 := by
  cases parsed with
  | moved | frame | uic | full => exact ⟨List.prefix_rfl, Nat.le_succ _⟩
  | @detail index problem detail there few room =>
    have same := @map_set_same _ _ _ _ Problem.identity (problem.details ++ [detail]) there rfl
    exact ⟨⟨[], by rw [same, List.append_nil]⟩, by simp⟩
  | added =>
    refine ⟨?_, ?_⟩
    · rw [Grows, List.map_append]
      exact List.prefix_append _ _
    · simp

theorem grows_keeps (sha256 : List UInt8 → String) (patterns : Patterns) (run : RunInfo)
    (first : Diagnostics) :
    Keeps (diagnosticGrammar sha256 patterns run) fun _ found => Grows first found where
  parse _ _ _ grows := grows.trans parseLine_parsed.grows.1
  discard _ _ grows := grows
  later _ _ _ grows _ := grows

end Diagnostics

/-! ## Another reading of the log -/

/-- Two readings of one generation of a log of a run. -/
structure SameLog (run later : RunInfo) : Prop where
  runId : later.runId = run.runId
  projectId : later.projectId = run.projectId
  generation : later.log.generation = run.log.generation
  source : later.sourceStart.generation = run.sourceStart.generation

theorem SameLog.grammar {later : RunInfo} (same : SameLog run later) :
    diagnosticGrammar sha256 patterns later = diagnosticGrammar sha256 patterns run := by
  have add : ∀ found : Diagnostics, found.add sha256 later = found.add sha256 run := by
    intro found
    funext file range severity message offset
    simp only [Diagnostics.add, same.runId, same.projectId, same.generation, same.source]
  simp only [diagnosticGrammar, Diagnostics.parseLine, Diagnostics.compilerLine,
    Diagnostics.cmakeLine, Diagnostics.makeLine, Diagnostics.pytestLine,
    Diagnostics.pythonErrorLine, Diagnostics.uicFileLine, Diagnostics.toolLine, add]

namespace ProblemParser

variable {δ : Type} {grammar : Grammar δ}

/-- What the parser goes on with; the rest of it is only reported. -/
structure Alike (first second : ProblemParser δ) : Prop where
  problems : second.result.problems = first.result.problems
  line : second.line = first.line
  offset : second.lineOffset = first.lineOffset
  limited : second.lineLimited = first.lineLimited
  ambiguous : second.lineAmbiguous = first.lineAmbiguous
  state : second.controls.state = first.controls.state

theorem consume_alike {first second : Controls} (same : second.state = first.state)
    (byte : UInt8) :
    (second.consume byte).1.state = (first.consume byte).1.state ∧
      (second.consume byte).2 = (first.consume byte).2 := by
  obtain ⟨state, removed⟩ := first
  obtain ⟨other, gone⟩ := second
  cases same
  cases state <;> simp only [Controls.consume, Controls.toState] <;> (repeat' split) <;> trivial

variable {first second : ProblemParser δ}

theorem Alike.completeLine (alike : Alike first second) :
    Alike (first.completeLine grammar) (second.completeLine grammar) := by
  have text : second.acceptedText = first.acceptedText := by
    simp only [acceptedText, alike.line, alike.limited, alike.ambiguous]
  have before := @completeLine_completed _ grammar first
  have after := @completeLine_completed _ grammar second
  exact
    { problems := by rw [before.problems, after.problems, text, alike.problems, alike.offset]
      line := by rw [before.line, after.line]
      offset := by rw [before.offset, after.offset, alike.offset]
      limited := by rw [before.limited, after.limited]
      ambiguous := by rw [before.ambiguous, after.ambiguous]
      state := by rw [before.state, after.state, alike.state] }

theorem Alike.marked (alike : Alike first second) (byte : UInt8) :
    Alike (first.marked byte) (second.marked byte) := by
  unfold ProblemParser.marked
  rw [alike.state]
  split
  · exact ⟨alike.problems, alike.line, alike.offset, alike.limited, rfl, alike.state⟩
  · exact alike

theorem Alike.keep (alike : Alike first second) (ending : Nat) (kept : Option UInt8) :
    Alike (first.keep grammar ending kept) (second.keep grammar ending kept) := by
  cases kept with
  | none => exact alike
  | some byte =>
    have done := @Alike.completeLine _ grammar _ _ alike
    simp only [ProblemParser.keep, alike.line]
    split_ifs
    · exact ⟨done.problems, done.line, rfl, done.limited, done.ambiguous, done.state⟩
    · exact ⟨alike.problems, rfl, alike.offset, alike.limited, alike.ambiguous, alike.state⟩
    · exact ⟨alike.problems, rfl, alike.offset, rfl, alike.ambiguous, alike.state⟩

theorem Alike.feed (alike : Alike first second) (offset : Nat) (log : List UInt8) :
    Alike (first.feed grammar offset log) (second.feed grammar offset log) := by
  induction log generalizing first second offset with
  | nil => exact alike
  | cons byte rest inductionHypothesis =>
    have marked := alike.marked byte
    obtain ⟨state, kept⟩ := consume_alike marked.state byte
    have consumed : Alike
        ({ first.marked byte with
          controls := ((first.marked byte).controls.consume byte).1 } : ProblemParser δ)
        ({ second.marked byte with
          controls := ((second.marked byte).controls.consume byte).1 } : ProblemParser δ) :=
      ⟨marked.problems, marked.line, marked.offset, marked.limited, marked.ambiguous, state⟩
    refine inductionHypothesis ?_ (offset + 1)
    unfold feedByte
    dsimp only
    rw [kept]
    exact consumed.keep _ _

end ProblemParser

/-! ## Ids -/

theorem length_littleEndian (value : Nat) : (littleEndian value).length = 8 := by
  simp [littleEndian]

theorem littleEndian_injective {first second : Nat} (small : first < 2 ^ 64)
    (short : second < 2 ^ 64) (same : littleEndian first = littleEndian second) :
    first = second := by
  simp only [littleEndian, List.range_succ, List.range_zero, List.nil_append,
    List.map_cons, List.map_nil, List.cons_append, List.cons.injEq, ← UInt8.toNat_inj,
    UInt8.toNat_ofNat'] at same
  omega

/-- The place is one of the hashed fields. -/
theorem hashed_injective {runId : String} {generation first second : Nat} {left right : String}
    (small : first < 2 ^ 64) (short : second < 2 ^ 64)
    (same : hashed runId generation first left = hashed runId generation second right) :
    first = second := by
  simp only [hashed, List.flatMap_cons, List.flatMap_nil, List.append_assoc,
    List.append_cancel_left_eq, length_littleEndian] at same
  have field := List.append_inj_left same (by simp only [length_littleEndian])
  exact littleEndian_injective small short field

/-! ## The problems of a log -/

/-- What the complete lines of a log report; a last line without its end is left out. -/
def settled (sha256 : List UInt8 → String) (patterns : Patterns) (run : RunInfo)
    (log : List UInt8) : List Problem :=
  (parserOf sha256 patterns run log).result.problems.problems

theorem contiguous_short {offset : Nat} {chunks : List LogChunk} (small : offset < 2 ^ 64)
    (split : Contiguous run offset chunks) :
    offset + (chunks.flatMap (·.data)).length < 2 ^ 64 := by
  induction chunks generalizing offset with
  | nil => simpa using small
  | cons chunk rest inductionHypothesis =>
    obtain ⟨_, _, next, _, below, _, others⟩ := split
    have last := inductionHypothesis below others
    rw [List.flatMap_cons, List.length_append]
    omega

theorem owned_parserOf (log : List UInt8) :
    Holds (Diagnostics.Owned sha256 run) (parserOf sha256 patterns run log) log.length := by
  have start : Holds (Diagnostics.Owned sha256 run)
      (new (diagnosticGrammar sha256 patterns run) run) 0 :=
    ⟨Nat.le_refl 0, Diagnostics.owned_empty, Nat.zero_le _⟩
  have holds := (Diagnostics.owned_keeps sha256 patterns run).feed start log
  rw [Nat.zero_add] at holds
  exact holds

/-- The problems of a log, with its last line taken as it is. -/
theorem problemsOf_finished {chunks : List LogChunk} {descriptor : LogDescriptor}
    {set : ProblemSet Diagnostics} (split : Contiguous run 0 chunks)
    (finished : problemsOf sha256 patterns run chunks descriptor = .ok set) :
    let log := chunks.flatMap (·.data)
    Diagnostics.Owned sha256 run (log.length + 1) set.problems ∧
      (settled sha256 patterns run log).map Problem.identity <+:
        set.problems.problems.map Problem.identity ∧
      set.problems.problems.length ≤ (settled sha256 patterns run log).length + 1 := by
  intro log
  have last : set.problems = ((parserOf sha256 patterns run log).completeLine
      (diagnosticGrammar sha256 patterns run)).result.problems := by
    rw [problemsOf_contiguous split] at finished
    rw [finish_ok finished, completeLine_moved]
    rfl
  have holds := @owned_parserOf sha256 run patterns log
  have found : Diagnostics.Owned sha256 run
      ((parserOf sha256 patterns run log).lineOffset + 1) set.problems := by
    rw [last]
    exact (Diagnostics.owned_keeps sha256 patterns run).completeLine holds.found
  have grown : Diagnostics.Grows (parserOf sha256 patterns run log).result.problems set.problems ∧
      set.problems.problems.length ≤ (settled sha256 patterns run log).length + 1 := by
    rw [last, (completeLine_completed _).problems]
    split
    · exact ⟨List.prefix_rfl, Nat.le_succ _⟩
    · exact Diagnostics.parseLine_parsed.grows
  have within := holds.within
  exact ⟨found.fewer (List.Sublist.refl _) rfl (by omega), grown⟩

/-- What the complete lines of a log report stays when the log grows. -/
theorem settled_grows {later : RunInfo} (same : SameLog run later) (log more : List UInt8) :
    (settled sha256 patterns run log).map Problem.identity <+:
      (settled sha256 patterns later (log ++ more)).map Problem.identity := by
  have alike : Alike (new (diagnosticGrammar sha256 patterns run) run)
      (new (diagnosticGrammar sha256 patterns run) later) := ⟨rfl, rfl, rfl, rfl, rfl, rfl⟩
  have read := @Alike.feed _ (diagnosticGrammar sha256 patterns run) _ _ alike 0 (log ++ more)
  have problems : settled sha256 patterns later (log ++ more) =
      settled sha256 patterns run (log ++ more) := by
    unfold settled parserOf
    rw [same.grammar, read.problems]
  have whole : parserOf sha256 patterns run (log ++ more) =
      (parserOf sha256 patterns run log).feed (diagnosticGrammar sha256 patterns run) log.length
        more := by
    rw [parserOf, feed_append, Nat.zero_add]
    rfl
  have holds := @owned_parserOf sha256 run patterns log
  have start : Holds (fun _ found =>
      Diagnostics.Grows (parserOf sha256 patterns run log).result.problems found)
      (parserOf sha256 patterns run log) log.length :=
    ⟨holds.within, List.prefix_rfl, holds.line⟩
  rw [problems, settled, settled, whole]
  exact ((Diagnostics.grows_keeps sha256 patterns run _).feed start more).found

/-- Every problem has a place and an id of its own; what the complete lines report is shown
    again in every longer log, and is what a look-up by its id finds. -/
structure Identified (sha256 : List UInt8 → String) (patterns : Patterns) (run : RunInfo)
    (log : List UInt8) (set : ProblemSet Diagnostics) : Prop where
  places : (set.problems.problems.map (·.logOffset)).Nodup
  ids : (set.problems.problems.map (·.id)).Nodup
  shown : (settled sha256 patterns run log).map Problem.identity <+:
    set.problems.problems.map Problem.identity
  tail : set.problems.problems.length ≤ (settled sha256 patterns run log).length + 1
  grown : ∀ later more descriptor grown, SameLog run later → Contiguous later 0 more →
    log <+: more.flatMap (·.data) →
    problemsOf sha256 patterns later more descriptor = .ok grown →
      (settled sha256 patterns run log).map Problem.identity <+:
        grown.problems.problems.map Problem.identity ∧
      ∀ problem ∈ settled sha256 patterns run log, ∃ found,
        grown.lookup problem.id = .ok found ∧ found.identity = problem.identity

theorem ids_distinct (injective : Function.Injective sha256) {log : List UInt8}
    {found : Diagnostics} (short : log.length < 2 ^ 64)
    (owned : Diagnostics.Owned sha256 run (log.length + 1) found) :
    (found.problems.map (·.logOffset)).Nodup ∧ (found.problems.map (·.id)).Nodup := by
  have places : (found.problems.map (·.logOffset)).Nodup :=
    owned.distinct.sublist (List.sublist_append_left _ _)
  have small : ∀ problem ∈ found.problems, problem.logOffset < 2 ^ 64 := by
    intro problem mem
    have place : problem.logOffset ∈ found.places :=
      List.mem_append_left _ (List.mem_map_of_mem mem)
    have before := owned.before _ place
    omega
  refine ⟨places, ?_⟩
  -- two problems of one id are at one place
  refine List.Nodup.map_on ?_ (List.Nodup.of_map _ places)
  intro first mem second other same
  rw [owned.ids first mem, owned.ids second other] at same
  have place := hashed_injective (small first mem) (small second other) (injective same)
  exact List.inj_on_of_nodup_map places mem other place

/-- The id of a problem finds it among problems with ids of their own. -/
theorem lookup_shown {set : ProblemSet Diagnostics} {problem : Problem} {shown : List Problem}
    (ids : (set.problems.problems.map (·.id)).Nodup)
    (part : shown.map Problem.identity <+: set.problems.problems.map Problem.identity)
    (mem : problem ∈ shown) :
    ∃ found, set.lookup problem.id = .ok found ∧ found.identity = problem.identity := by
  obtain ⟨other, there, same⟩ := List.mem_map.mp (part.subset (List.mem_map_of_mem mem))
  have id : other.id = problem.id :=
    (congrArg Problem.id same : other.identity.id = problem.identity.id)
  have some_ : (set.problems.problems.find? (·.id == problem.id)).isSome = true := by
    rw [List.find?_isSome]
    exact ⟨other, there, by rw [id, beq_self_eq_true]⟩
  obtain ⟨found, first⟩ := Option.isSome_iff_exists.mp some_
  have equal : found = other := by
    refine List.inj_on_of_nodup_map ids (List.mem_of_find?_eq_some first) there ?_
    have hit := List.find?_some first
    rw [id]
    simpa using hit
  refine ⟨found, ?_, equal ▸ same⟩
  rw [ProblemSet.lookup, first]
  rfl

/-- The problems of a log are told apart by their ids, and those of its complete lines are found
    by them in every longer log. -/
theorem problem_identity_exact (injective : Function.Injective sha256) {chunks : List LogChunk}
    {descriptor : LogDescriptor} {set : ProblemSet Diagnostics}
    (split : Contiguous run 0 chunks)
    (finished : problemsOf sha256 patterns run chunks descriptor = .ok set) :
    Identified sha256 patterns run (chunks.flatMap (·.data)) set := by
  have short := contiguous_short (by decide) split
  rw [Nat.zero_add] at short
  obtain ⟨owned, shown, tail⟩ := problemsOf_finished split finished
  obtain ⟨places, ids⟩ := ids_distinct injective short owned
  refine ⟨places, ids, shown, tail, ?_⟩
  intro later more descriptor grown same resplit longer collected
  have limit := contiguous_short (by decide) resplit
  rw [Nat.zero_add] at limit
  obtain ⟨laterOwned, laterShown, -⟩ := problemsOf_finished resplit collected
  obtain ⟨rest, whole⟩ := longer
  have stays := @settled_grows sha256 _ patterns _ same
    (chunks.flatMap (·.data)) rest
  rw [whole] at stays
  have part := stays.trans laterShown
  exact ⟨part, fun problem mem => lookup_shown (ids_distinct injective limit laterOwned).2 part mem⟩

/-! ## A log that ends within a line -/

theorem plainHash_injective : Function.Injective plainHash := by
  intro first second same
  have chars := String.ofList_injective same
  refine List.map_injective_iff.mpr ?_ chars
  intro left right equal
  have code : ∀ byte : UInt8, (Char.ofNat byte.toNat).toNat = byte.toNat := by
    intro byte
    have small := byte.toNat_lt
    have valid : byte.toNat.isValidChar := Or.inl (by omega)
    rw [Char.ofNat, dif_pos valid]
    rfl
  have numbers : (Char.ofNat left.toNat).toNat = (Char.ofNat right.toNat).toNat :=
    congrArg Char.toNat equal
  rw [code, code] at numbers
  exact UInt8.toNat_inj.mp numbers

/-- Two lines of a compiler of which the second one is not complete. -/
def cutLog : List UInt8 := utf8 (compilerText "\n" ++ compilerText "")

/-- The same log when the second line goes on. -/
def grownLog : List UInt8 := utf8 (compilerText "\n" ++ compilerText " y\n")

def cutProblems : Result (ProblemSet Diagnostics) :=
  problemsOf plainHash makePatterns makeRun [makeChunk 0 31 cutLog] (makeLog 31)

def grownProblems : Result (ProblemSet Diagnostics) :=
  problemsOf plainHash makePatterns makeRun [makeChunk 0 34 grownLog] (makeLog 34)

/-- A problem of the first set whose id no problem of the second one has. -/
def losesId (first second : Result (ProblemSet Diagnostics)) : Bool :=
  match first, second with
  | .ok first, .ok second => first.problems.problems.any fun problem =>
      second.problems.problems.all fun found => found.id != problem.id
  | _, _ => false

theorem cut_loses : losesId cutProblems grownProblems = true := by decide +kernel

theorem problem_identity_exact_compiler :
    ∃ set, cutProblems = .ok set ∧ Identified plainHash makePatterns makeRun cutLog set := by
  have split : Contiguous makeRun 0 [makeChunk 0 31 cutLog] := by decide
  have whole : [makeChunk 0 31 cutLog].flatMap (·.data) = cutLog := List.append_nil _
  have lost := cut_loses
  cases finished : cutProblems with
  | error error =>
    rw [finished] at lost
    cases lost
  | ok set =>
    have identified := problem_identity_exact plainHash_injective split finished
    rw [whole] at identified
    exact ⟨set, rfl, identified⟩

/-- The message of a line that goes on makes another id. -/
theorem problem_identity_tail : ∃ early grown,
    cutProblems = .ok early ∧ grownProblems = .ok grown ∧
      ∃ problem ∈ early.problems.problems, ∀ found ∈ grown.problems.problems,
        found.id ≠ problem.id := by
  have lost := cut_loses
  cases first : cutProblems with
  | error error =>
    rw [first] at lost
    cases lost
  | ok early =>
    cases second : grownProblems with
    | error error =>
      rw [first, second] at lost
      cases lost
    | ok grown =>
      rw [first, second] at lost
      simp only [losesId, List.any_eq_true, List.all_eq_true, bne_iff_ne] at lost
      exact ⟨early, grown, rfl, rfl, lost⟩

end Idk
