import Idk.Logic.JsonReading
import Idk.Model.Digests
import Idk.Model.Editor
import Idk.Verified.Git.Texts

/-!
# What a digest is of

**Main result:** `preimages_injective`: the fields behind their lengths are known from what is
hashed, and with them the shell, the task or the launch, whichever of their optional parts are
there.  An approval then belongs to one definition.

The optional parts are told apart by how many fields there are: a script takes three of them.
Where two parts make up for each other, a task without an execution and one with an artifact,
the first field is the digest of the shell in the one and a JSON object in the other.
-/

namespace Idk.Model

open Idk.Logic
open Idk.Git (bytesOf)

/-! ## Texts and values from their bytes -/

theorem bytesOf_injective {first second : String} (same : bytesOf first = bytesOf second) :
    first = second := by
  have read := @Git.fromUTF8?_bytesOf first
  rw [same, Git.fromUTF8?_bytesOf] at read
  exact (Option.some.inj read).symm

theorem toVec_injective {first second : Json} (plain : first.exact = true)
    (other : second.exact = true) (same : toVec first = toVec second) : first = second := by
  have texts := bytesOf_injective same
  exact Json.compact_injective plain other (String.ofList_injective texts)

theorem exact_list {α : Type} {values : List α} {encoded : α → Json}
    (each : ∀ value, (encoded value).exact = true) : (Json.list values encoded).exact = true := by
  rw [Json.list, Json.exact]
  induction values with
  | nil => rfl
  | cons value rest inductionHypothesis =>
    rw [List.map_cons, Json.exactItems, each, inductionHypothesis]
    rfl

theorem exact_optional {α : Type} {value : Option α} {encoded : α → Json}
    (each : ∀ value, (encoded value).exact = true) :
    (Json.optional value encoded).exact = true := by
  cases value with
  | none => rfl
  | some value => exact each value

theorem list_injective {α : Type} {first second : List α} {encoded : α → Json}
    (known : ∀ left ∈ first, ∀ right ∈ second, encoded left = encoded right → left = right)
    (same : Json.list first encoded = Json.list second encoded) : first = second := by
  have maps := Json.arr.inj same
  induction first generalizing second with
  | nil => exact (List.map_eq_nil_iff.mp maps.symm).symm
  | cons left rest inductionHypothesis =>
    cases second with
    | nil => cases maps
    | cons right others =>
      rw [List.map_cons, List.map_cons, List.cons.injEq] at maps
      have later := inductionHypothesis (fun left mem right there =>
        known left (List.mem_cons_of_mem _ mem) right (List.mem_cons_of_mem _ there))
        (congrArg Json.arr maps.2) maps.2
      rw [known left List.mem_cons_self right List.mem_cons_self maps.1, later]

theorem texts_injective {first second : List String}
    (same : Json.list first .str = Json.list second .str) : first = second :=
  list_injective (fun _ _ _ _ => Json.str.inj) same

theorem exact_texts (values : List String) : (Json.list values .str).exact = true :=
  exact_list fun _ => rfl

theorem environmentJson_injective {first second : Environment}
    (same : environmentJson first = environmentJson second) : first = second := by
  have maps := Json.obj.inj same
  refine List.map_injective_iff.mpr (fun left right entry => ?_) maps
  simp only [Prod.mk.injEq, Json.str.injEq] at entry
  exact Prod.ext entry.1 entry.2

theorem exact_environmentJson (env : Environment) : (environmentJson env).exact = true := by
  rw [environmentJson, Json.exact]
  induction env with
  | nil => rfl
  | cons entry rest inductionHypothesis =>
    rw [List.map_cons, Json.exactFields, inductionHypothesis]
    rfl

/-! ## Paths -/

/-- The components of a path are those that its text is read as. -/
def Proper (path : PathBuf) : Prop := pathOf path.text = path

instance (path : PathBuf) : Decidable (Proper path) :=
  inferInstanceAs (Decidable (pathOf path.text = path))

theorem text_injective {first second : PathBuf} (proper : Proper first) (other : Proper second)
    (same : first.text = second.text) : first = second := by
  rw [← proper, ← other, same]

theorem osBytes_injective {first second : PathBuf} (proper : Proper first) (other : Proper second)
    (same : osBytes first = osBytes second) : first = second :=
  text_injective proper other (bytesOf_injective same)

theorem toJson_injective {first second : PathBuf} (proper : Proper first) (other : Proper second)
    (same : first.toJson = second.toJson) : first = second :=
  text_injective proper other (Json.str.inj same)

theorem optionalPath_injective {first second : Option PathBuf}
    (proper : ∀ path ∈ first, Proper path) (other : ∀ path ∈ second, Proper path)
    (same : Json.optional first PathBuf.toJson = Json.optional second PathBuf.toJson) :
    first = second := by
  cases first with
  | none =>
    cases second with
    | none => rfl
    | some right => cases same
  | some left =>
    cases second with
    | none => cases same
    | some right => rw [toJson_injective (proper left rfl) (other right rfl) same]

theorem optionalText_injective {first second : Option String}
    (same : Json.optional first .str = Json.optional second .str) : first = second := by
  cases first <;> cases second <;> cases same <;> rfl

theorem optionalNat_injective {first second : Option Nat}
    (same : Json.optional first .nat = Json.optional second .nat) : first = second := by
  cases first <;> cases second <;> cases same <;> rfl

/-! ## Definitions -/

structure ShellConfig.Proper (shell : ShellConfig) : Prop where
  executable : Model.Proper shell.executable
  initCwd : Model.Proper shell.initCwd
  sources : ∀ source ∈ shell.sources, Model.Proper source.path

def TaskExecution.program : TaskExecution → PathBuf
  | .process program _ _ => program
  | .script interpreter _ _ _ => interpreter

structure TaskDefinition.Proper (task : TaskDefinition) : Prop where
  execution : ∀ execution ∈ task.execution, Model.Proper execution.program
  cwd : Model.Proper task.cwd
  sources : ∀ source ∈ task.sources, Model.Proper source.path
  artifact : ∀ artifact ∈ task.artifact, Model.Proper artifact
  outputs : ∀ output ∈ task.buildOutputs, Model.Proper output

structure Repository.Proper (repository : Repository) : Prop where
  root : Model.Proper repository.root
  gitDir : Model.Proper repository.gitDir
  commonDir : Model.Proper repository.commonDir

theorem NativeShell.toJson_injective {first second : NativeShell}
    (same : first.toJson = second.toJson) : first = second := by
  simp only [NativeShell.toJson, Json.obj.injEq, List.cons.injEq, Prod.mk.injEq, true_and,
    and_true] at same
  cases first
  cases second
  rw [NativeShell.mk.injEq]
  exact ⟨texts_injective same.1, environmentJson_injective same.2⟩

theorem SourceSpec.toJson_injective {first second : SourceSpec} (proper : Model.Proper first.path)
    (other : Model.Proper second.path) (same : first.toJson = second.toJson) : first = second := by
  simp only [SourceSpec.toJson, Json.obj.injEq, List.cons.injEq, Prod.mk.injEq, true_and,
    and_true] at same
  cases first
  cases second
  rw [SourceSpec.mk.injEq]
  exact ⟨Model.toJson_injective proper other same.1, texts_injective same.2⟩

theorem TaskExecution.toJson_injective {first second : TaskExecution}
    (proper : Model.Proper first.program) (other : Model.Proper second.program)
    (same : first.toJson = second.toJson) : first = second := by
  cases first with
  | process program args env =>
    cases second with
    | process program_ args_ env_ =>
      simp only [TaskExecution.toJson, Json.obj.injEq, List.cons.injEq, Prod.mk.injEq, true_and,
        and_true] at same
      obtain ⟨programs, lists, maps⟩ := same
      have programs : program = program_ := Model.toJson_injective proper other programs
      rw [programs, texts_injective lists, environmentJson_injective maps]
    | script => simp [TaskExecution.toJson] at same
  | script interpreter args text env =>
    cases second with
    | process => simp [TaskExecution.toJson] at same
    | script interpreter_ args_ text_ env_ =>
      simp only [TaskExecution.toJson, Json.obj.injEq, List.cons.injEq, Prod.mk.injEq, true_and,
        and_true, Json.str.injEq] at same
      obtain ⟨programs, lists, texts, maps⟩ := same
      have programs : interpreter = interpreter_ := Model.toJson_injective proper other programs
      rw [programs, texts_injective lists, texts, environmentJson_injective maps]

theorem TaskStep.toJson_injective {first second : TaskStep}
    (same : first.toJson = second.toJson) : first = second := by
  simp only [TaskStep.toJson, Json.obj.injEq, List.cons.injEq, Prod.mk.injEq, true_and,
    and_true, Json.str.injEq] at same
  cases first
  cases second
  rw [TaskStep.mk.injEq]
  exact same

theorem FailurePolicy.toJson_injective {first second : FailurePolicy}
    (same : first.toJson = second.toJson) : first = second := by
  cases first <;> cases second <;> first | rfl | simp [FailurePolicy.toJson] at same

theorem TaskLogging.toJson_injective {first second : TaskLogging}
    (same : first.toJson = second.toJson) : first = second := by
  cases first <;> cases second <;> first | rfl | simp [TaskLogging.toJson] at same

theorem Repository.toJson_injective {first second : Repository} (proper : first.Proper)
    (other : second.Proper) (same : first.toJson = second.toJson) : first = second := by
  simp only [Repository.toJson, Json.obj.injEq, List.cons.injEq, Prod.mk.injEq, true_and,
    and_true] at same
  cases first
  cases second
  rw [Repository.mk.injEq]
  exact ⟨Model.toJson_injective proper.root other.root same.1,
    Model.toJson_injective proper.gitDir other.gitDir same.2.1,
    Model.toJson_injective proper.commonDir other.commonDir same.2.2⟩

theorem TaskDefinition.toJson_injective {first second : TaskDefinition} (proper : first.Proper)
    (other : second.Proper) (same : first.toJson = second.toJson) : first = second := by
  have fields := Json.obj.inj same
  have executions : first.execution = second.execution := by
    cases left : first.execution with
    | none =>
      cases right : second.execution with
      | none => rfl
      | some there => simp [left, right] at fields
    | some here =>
      cases right : second.execution with
      | none => simp [left, right] at fields
      | some there =>
        simp only [left, right, Option.toList_some, List.map_cons, List.cons_append,
          List.cons.injEq, Prod.mk.injEq, true_and] at fields
        rw [TaskExecution.toJson_injective (proper.execution here left)
          (other.execution there right) fields.1]
  rw [executions, List.append_cancel_left_eq] at fields
  simp only [List.cons.injEq, Prod.mk.injEq, true_and, and_true, Json.str.injEq,
    Json.bool.injEq] at fields
  obtain ⟨ids, names, commands, cwds, sources, artifacts, digests, steps, policies, loggings,
    interactives, outputs, fromTasks, timeouts⟩ := fields
  cases first
  cases second
  rw [TaskDefinition.mk.injEq]
  exact ⟨executions, ids, names, commands, Model.toJson_injective proper.cwd other.cwd cwds,
    list_injective (fun left mem right there =>
      SourceSpec.toJson_injective (proper.sources left mem) (other.sources right there)) sources,
    optionalPath_injective proper.artifact other.artifact artifacts,
    optionalText_injective digests,
    list_injective (fun _ _ _ _ => TaskStep.toJson_injective) steps,
    FailurePolicy.toJson_injective policies, TaskLogging.toJson_injective loggings, interactives,
    list_injective (fun left mem right there =>
      Model.toJson_injective (proper.outputs left mem) (other.outputs right there)) outputs,
    optionalText_injective fromTasks, optionalNat_injective timeouts⟩

/-! ### No definition holds a float -/

theorem NativeShell.exact_toJson (native : NativeShell) : native.toJson.exact = true := by
  simp [NativeShell.toJson, Json.exact, Json.exactFields, exact_texts, exact_environmentJson]

theorem SourceSpec.exact_toJson (source : SourceSpec) : source.toJson.exact = true := by
  simp [SourceSpec.toJson, Json.exact, Json.exactFields, exact_texts, PathBuf.toJson]

theorem TaskExecution.exact_toJson (execution : TaskExecution) :
    execution.toJson.exact = true := by
  cases execution <;> simp [TaskExecution.toJson, Json.exact, Json.exactFields, exact_texts,
    exact_environmentJson, PathBuf.toJson]

theorem TaskStep.exact_toJson (step : TaskStep) : step.toJson.exact = true := rfl

theorem Repository.exact_toJson (repository : Repository) : repository.toJson.exact = true := rfl

theorem TaskDefinition.exact_toJson (task : TaskDefinition) : task.toJson.exact = true := by
  have policy : task.failurePolicy.toJson.exact = true := by
    cases task.failurePolicy <;> rfl
  have logging : task.logging.toJson.exact = true := by
    cases task.logging <;> rfl
  have path (value : PathBuf) : value.toJson.exact = true := rfl
  have digest : (Json.optional task.approvedDigest .str).exact = true :=
    exact_optional fun _ => rfl
  have fromTask : (Json.optional task.artifactFromTask .str).exact = true :=
    exact_optional fun _ => rfl
  have steps : (Json.list task.steps TaskStep.toJson).exact = true :=
    exact_list TaskStep.exact_toJson
  have number (value : Nat) : (Json.nat value).exact = true := rfl
  cases execution : task.execution <;>
    simp [TaskDefinition.toJson, execution, Json.exact, Json.exactFields, exact_list,
      exact_optional, policy, logging, path, digest, fromTask, steps, number,
      SourceSpec.exact_toJson, TaskExecution.exact_toJson]

/-! ## What is hashed, by its fields -/

theorem sizes_bigEndian : Sizes bigEndian (2 ^ 64) where
  width _ _ := by simp [bigEndian]
  some_ length empty := by
    have width := congrArg List.length empty
    simp [bigEndian] at width
  known _ _ small short same := places_injective small short (List.reverse_injective same)

theorem hashField_eq (digest bytes : List UInt8) :
    hashField digest bytes = digest ++ frame bigEndian bytes := by
  rw [hashField, frame, List.append_assoc]

theorem foldl_hashField {fields : List (List UInt8)} {digest : List UInt8} :
    fields.foldl hashField digest = digest ++ framed bigEndian fields := by
  induction fields generalizing digest with
  | nil => simp
  | cons field rest inductionHypothesis =>
    rw [List.foldl_cons, inductionHypothesis, hashField_eq, framed_cons, List.append_assoc]

theorem mapM_cons_ok {α β : Type} {step : α → Result β} {value : α} {rest : List α}
    {results : List β} : (value :: rest).mapM step = .ok results ↔
      ∃ first others, step value = .ok first ∧ rest.mapM step = .ok others ∧
        results = first :: others := by
  rw [List.mapM_cons]
  constructor
  · intro run
    obtain ⟨first, here, run⟩ := bind_eq_ok.mp run
    obtain ⟨others, later, run⟩ := bind_eq_ok.mp run
    cases run
    exact ⟨first, others, here, later, rfl⟩
  · rintro ⟨first, others, here, later, rfl⟩
    rw [here, later]
    rfl

theorem length_mapM {α β : Type} {step : α → Result β} {values : List α} {results : List β}
    (run : values.mapM step = .ok results) : results.length = values.length := by
  induction values generalizing results with
  | nil =>
    cases run
    rfl
  | cons value rest inductionHypothesis =>
    obtain ⟨first, others, _, later, rfl⟩ := mapM_cons_ok.mp run
    simp [inductionHypothesis later]

/-- The fields of the scripts, three for each. -/
def scriptFields : List SourceSpec → List (List UInt8) → List (List UInt8)
  | source :: sources, content :: contents =>
    osBytes source.path :: toVec (.list source.args .str) :: content ::
      scriptFields sources contents
  | _, _ => []

def sourceFields (sources : List SourceSpec) (contents : List (List UInt8)) : List (List UInt8) :=
  bigEndian sources.length :: scriptFields sources contents

theorem length_scriptFields {sources : List SourceSpec} {contents : List (List UInt8)}
    (lengths : contents.length = sources.length) :
    (scriptFields sources contents).length = 3 * sources.length := by
  induction sources generalizing contents with
  | nil => cases contents <;> rfl
  | cons source sources inductionHypothesis =>
    cases contents with
    | nil => cases lengths
    | cons content contents =>
      have rest := inductionHypothesis (Nat.succ.inj lengths)
      simp only [scriptFields, List.length_cons, rest]
      omega

theorem scriptFields_injective {first second : List SourceSpec} {left right : List (List UInt8)}
    (proper : ∀ source ∈ first, Proper source.path) (other : ∀ source ∈ second, Proper source.path)
    (lengths : left.length = first.length) (others : right.length = second.length)
    (same : scriptFields first left = scriptFields second right) :
    first = second ∧ left = right := by
  induction first generalizing second left right with
  | nil =>
    have count := congrArg List.length same
    rw [length_scriptFields lengths, length_scriptFields others] at count
    obtain rfl : second = [] := List.eq_nil_of_length_eq_zero (by simpa using count.symm)
    rw [List.eq_nil_of_length_eq_zero lengths, List.eq_nil_of_length_eq_zero others]
    exact ⟨rfl, rfl⟩
  | cons source sources inductionHypothesis =>
    cases second with
    | nil =>
      have count := congrArg List.length same
      rw [length_scriptFields lengths, length_scriptFields others] at count
      cases count
    | cons source_ sources_ =>
      cases left with
      | nil => cases lengths
      | cons content contents =>
        cases right with
        | nil => cases others
        | cons content_ contents_ =>
          simp only [scriptFields, List.cons.injEq] at same
          obtain ⟨paths, args, here, later⟩ := same
          obtain ⟨rfl, rfl⟩ := inductionHypothesis
            (fun source mem => proper source (List.mem_cons_of_mem _ mem))
            (fun source mem => other source (List.mem_cons_of_mem _ mem))
            (Nat.succ.inj lengths) (Nat.succ.inj others) later
          have paths := osBytes_injective (proper source List.mem_cons_self)
            (other source_ List.mem_cons_self) paths
          have args := texts_injective (toVec_injective (exact_texts _) (exact_texts _) args)
          have sources : source = source_ := by
            cases source
            cases source_
            rw [SourceSpec.mk.injEq]
            exact ⟨paths, args⟩
          exact ⟨by rw [sources], by rw [here]⟩

variable {files : Files}

theorem hashSource_ok {digest bytes : List UInt8} {source : SourceSpec} :
    hashSource files digest source = .ok bytes ↔ ∃ content, readSource files source = .ok content ∧
      bytes = digest ++ framed bigEndian
        [osBytes source.path, toVec (.list source.args .str), content] := by
  simp only [hashSource, hashField_eq, framed_cons, framed_nil, List.append_nil,
    ← List.append_assoc]
  constructor
  · intro run
    obtain ⟨content, read, run⟩ := bind_eq_ok.mp run
    cases run
    exact ⟨content, read, rfl⟩
  · rintro ⟨content, read, rfl⟩
    rw [read]
    rfl

theorem hashSources_ok {digest bytes : List UInt8} {sources : List SourceSpec} :
    hashSources files digest sources = .ok bytes ↔
      ∃ contents, sources.mapM (readSource files) = .ok contents ∧
        bytes = digest ++ framed bigEndian (sourceFields sources contents) := by
  simp only [hashSources, sourceFields, hashField_eq, framed_cons, ← List.append_assoc]
  generalize bigEndian sources.length = count
  generalize digest ++ frame bigEndian count = start
  induction sources generalizing start bytes with
  | nil =>
    constructor
    · intro run
      cases run
      exact ⟨[], rfl, by simp [scriptFields]⟩
    · rintro ⟨contents, run, rfl⟩
      cases run
      simp only [scriptFields, framed_nil, List.append_nil]
      rfl
  | cons source sources inductionHypothesis =>
    rw [List.foldlM_cons]
    constructor
    · intro run
      obtain ⟨middle, here, later⟩ := bind_eq_ok.mp run
      obtain ⟨content, read, rfl⟩ := hashSource_ok.mp here
      obtain ⟨contents, reads, rfl⟩ := (inductionHypothesis _).mp later
      exact ⟨content :: contents, mapM_cons_ok.mpr ⟨_, _, read, reads, rfl⟩,
        by simp [scriptFields]⟩
    · rintro ⟨results, run, rfl⟩
      obtain ⟨content, contents, read, reads, rfl⟩ := mapM_cons_ok.mp run
      refine bind_eq_ok.mpr ⟨_, hashSource_ok.mpr ⟨content, read, rfl⟩, ?_⟩
      exact (inductionHypothesis _).mpr ⟨contents, reads, by simp [scriptFields]⟩

/-! ## The shell -/

def shellFields (shell : ShellConfig) (contents : List (List UInt8)) : List (List UInt8) :=
  [bytesOf "idk-source-definition-v2", osBytes shell.executable, [if shell.login then 1 else 0],
    osBytes shell.initCwd] ++ (shell.native.toList.map fun native => toVec native.toJson) ++
    sourceFields shell.sources contents

theorem sourcePreimage_ok {shell : ShellConfig} {bytes : List UInt8} :
    sourcePreimage files shell = .ok bytes ↔
      ∃ contents, shell.sources.mapM (readSource files) = .ok contents ∧
        bytes = framed bigEndian (shellFields shell contents) := by
  rw [sourcePreimage]
  cases native : shell.native with
  | none =>
    simp only [hashSources_ok, shellFields, native, hashField_eq, framed_append]
    simp
  | some native_ =>
    simp only [hashSources_ok, shellFields, native, hashField_eq, framed_append]
    simp

/-- Everything but the approval itself. -/
def ShellConfig.unapproved (shell : ShellConfig) : ShellConfig :=
  { shell with trustedDigest := none }

theorem shellFields_injective {first second : ShellConfig} {left right : List (List UInt8)}
    (proper : first.Proper) (other : second.Proper) (lengths : left.length = first.sources.length)
    (others : right.length = second.sources.length)
    (same : shellFields first left = shellFields second right) :
    first.unapproved = second.unapproved ∧ left = right := by
  simp only [shellFields, List.cons_append, List.nil_append, List.cons.injEq, true_and,
    and_true] at same
  obtain ⟨executables, logins, cwds, rest⟩ := same
  have executables := osBytes_injective proper.executable other.executable executables
  have cwds := osBytes_injective proper.initCwd other.initCwd cwds
  have logins : first.login = second.login := by
    cases here : first.login <;> cases there : second.login <;> simp_all
  -- a script takes three fields, so one more field is the native shell
  have count := congrArg List.length rest
  simp only [sourceFields, List.length_append, List.length_map, List.length_cons,
    length_scriptFields lengths, length_scriptFields others] at count
  have natives : first.native = second.native := by
    cases here : first.native with
    | none =>
      cases there : second.native with
      | none => rfl
      | some native =>
        simp only [here, there, Option.toList_none, Option.toList_some, List.length_nil,
          List.length_singleton] at count
        omega
    | some native =>
      cases there : second.native with
      | none =>
        simp only [here, there, Option.toList_none, Option.toList_some, List.length_nil,
          List.length_singleton] at count
        omega
      | some native_ =>
        simp only [here, there, Option.toList_some, List.map_cons, List.map_nil,
          List.cons_append, List.cons.injEq] at rest
        rw [NativeShell.toJson_injective (toVec_injective native.exact_toJson
          native_.exact_toJson rest.1)]
  rw [natives, List.append_cancel_left_eq, sourceFields, sourceFields, List.cons.injEq] at rest
  obtain ⟨sources, contents⟩ := scriptFields_injective proper.sources other.sources lengths others
    rest.2
  exact ⟨by rw [ShellConfig.mk.injEq]; exact ⟨natives, executables, logins, cwds, sources, rfl⟩,
    contents⟩

/-! ## The task -/

def taskFields (common : Option String) (task : TaskDefinition) (contents : List (List UInt8)) :
    List (List UInt8) :=
  bytesOf "idk-task-definition-v3" :: (common.toList.map bytesOf ++
    [toVec task.unapproved.toJson, bytesOf task.command, osBytes task.cwd] ++ sourceFields task.sources contents ++ task.artifact.toList.map osBytes)

variable {sha256 : List UInt8 → List UInt8}

/-- The digest of the shell, which only a task without an execution of its own runs in. -/
def boundShell (sha256 : List UInt8 → List UInt8) (files : Files) (shell : ShellConfig)
    (task : TaskDefinition) : Result (Option String) :=
  match task.execution with
  | none => do return some (← sourceDigest sha256 files shell)
  | some _ => .ok none

theorem hashDefinition_ok {task : TaskDefinition} {start bytes : List UInt8} :
    hashDefinition files start task = .ok bytes ↔
      ∃ contents, task.sources.mapM (readSource files) = .ok contents ∧
        bytes = start ++ framed bigEndian ([toVec task.unapproved.toJson, bytesOf task.command,
          osBytes task.cwd] ++ sourceFields task.sources contents ++
          task.artifact.toList.map osBytes) := by
  rw [hashDefinition]
  constructor
  · intro run
    obtain ⟨digest, hashed, run⟩ := bind_eq_ok.mp run
    obtain ⟨contents, read, rfl⟩ := hashSources_ok.mp hashed
    refine ⟨contents, read, ?_⟩
    cases artifact : task.artifact <;> rw [artifact] at run <;> cases run <;>
      simp [hashField_eq, framed_append]
  · rintro ⟨contents, read, rfl⟩
    refine bind_eq_ok.mpr ⟨_, hashSources_ok.mpr ⟨contents, read, rfl⟩, ?_⟩
    cases artifact : task.artifact <;> simp [hashField_eq, framed_append, pure, Except.pure]

theorem taskPreimage_ok {shell : ShellConfig} {task : TaskDefinition} {bytes : List UInt8} :
    taskPreimage sha256 files shell task = .ok bytes ↔
      ∃ common contents, boundShell sha256 files shell task = .ok common ∧
        task.sources.mapM (readSource files) = .ok contents ∧
        bytes = framed bigEndian (taskFields common task contents) := by
  rw [taskPreimage, boundShell]
  cases execution : task.execution with
  | none =>
    constructor
    · intro run
      obtain ⟨digest, known, run⟩ := bind_eq_ok.mp run
      obtain ⟨contents, read, rfl⟩ := hashDefinition_ok.mp run
      refine ⟨some digest, contents, bind_eq_ok.mpr ⟨digest, known, rfl⟩, read, ?_⟩
      simp [taskFields, hashField_eq, framed_append]
    · rintro ⟨common, contents, known, read, rfl⟩
      obtain ⟨digest, hashed, rest⟩ := bind_eq_ok.mp known
      cases rest
      refine bind_eq_ok.mpr ⟨digest, hashed, hashDefinition_ok.mpr ⟨contents, read, ?_⟩⟩
      simp [taskFields, hashField_eq, framed_append]
  | some own =>
    constructor
    · intro run
      obtain ⟨contents, read, rfl⟩ := hashDefinition_ok.mp run
      refine ⟨none, contents, rfl, read, ?_⟩
      simp [taskFields, hashField_eq, framed_append]
    · rintro ⟨common, contents, known, read, rfl⟩
      cases known
      refine hashDefinition_ok.mpr ⟨contents, read, ?_⟩
      simp [taskFields, hashField_eq, framed_append]

/-- No digest is written with a brace. -/
theorem hexadecimal_ne_object (bytes : List UInt8) (fields : List (String × Json)) :
    bytesOf (hexadecimal bytes) ≠ toVec (.obj fields) := by
  intro same
  have texts := congrArg String.toList (bytesOf_injective same)
  rw [hexadecimal, String.toList_ofList, String.toList_ofList] at texts
  have brace : '{' ∈ (Json.obj fields).compact := by
    cases fields with
    | nil => exact List.mem_cons_self
    | cons field fields => exact List.mem_cons_self
  rw [← texts] at brace
  obtain ⟨byte, _, digit⟩ := List.mem_flatMap.mp brace
  have digits : ∀ value < 16, '{' ≠ Nat.digitChar value := by decide
  have small := byte.toNat_lt
  simp only [List.mem_cons, List.not_mem_nil, or_false] at digit
  cases digit with
  | inl high => exact digits _ (by omega) high
  | inr low => exact digits _ (by omega) low

theorem boundShell_hexadecimal {shell : ShellConfig} {task : TaskDefinition} {digest : String}
    (bound : boundShell sha256 files shell task = .ok (some digest)) :
    ∃ bytes, sourcePreimage files shell = .ok bytes ∧ digest = hexadecimal (sha256 bytes) := by
  rw [boundShell] at bound
  split at bound
  · obtain ⟨_, known, run⟩ := bind_eq_ok.mp bound
    cases run
    obtain ⟨bytes, hashed, run⟩ := bind_eq_ok.mp known
    cases run
    exact ⟨bytes, hashed, rfl⟩
  · cases bound

theorem taskFields_injective {here there : Option String} {first second : TaskDefinition}
    {left right : List (List UInt8)} (proper : first.Proper) (other : second.Proper)
    (digest : ∀ common ∈ here, ∃ bytes, common = hexadecimal bytes)
    (digest_ : ∀ common ∈ there, ∃ bytes, common = hexadecimal bytes)
    (lengths : left.length = first.sources.length) (others : right.length = second.sources.length)
    (same : taskFields here first left = taskFields there second right) :
    here = there ∧ first.unapproved = second.unapproved ∧ left = right := by
  simp only [taskFields, List.append_assoc, List.cons.injEq, true_and] at same
  have object (task : TaskDefinition) : ∃ fields, task.toJson = .obj fields := ⟨_, rfl⟩
  have commons : here = there := by
    cases here with
    | none =>
      cases there with
      | none => rfl
      | some common =>
        obtain ⟨bytes, rfl⟩ := digest_ common rfl
        obtain ⟨fields, json⟩ := object first.unapproved
        simp only [Option.toList_none, Option.toList_some, List.map_nil, List.map_cons,
          List.nil_append, List.cons_append, List.cons.injEq, json] at same
        exact absurd same.1.symm (hexadecimal_ne_object _ _)
    | some common =>
      obtain ⟨bytes, rfl⟩ := digest common rfl
      cases there with
      | none =>
        obtain ⟨fields, json⟩ := object second.unapproved
        simp only [Option.toList_none, Option.toList_some, List.map_nil, List.map_cons,
          List.nil_append, List.cons_append, List.cons.injEq, json] at same
        exact absurd same.1 (hexadecimal_ne_object _ _)
      | some common_ =>
        simp only [Option.toList_some, List.map_cons, List.map_nil, List.cons_append,
          List.cons.injEq] at same
        rw [bytesOf_injective same.1]
  rw [commons, List.append_cancel_left_eq] at same
  simp only [List.cons_append, List.nil_append, sourceFields, List.cons.injEq] at same
  obtain ⟨definitions, _, _, _, rest⟩ := same
  have definitions : first.unapproved = second.unapproved :=
    TaskDefinition.toJson_injective ⟨proper.1, proper.2, proper.3, proper.4, proper.5⟩
      ⟨other.1, other.2, other.3, other.4, other.5⟩
      (toVec_injective (TaskDefinition.exact_toJson _) (TaskDefinition.exact_toJson _) definitions)
  have artifacts : first.unapproved.artifact = second.unapproved.artifact := by rw [definitions]
  change first.artifact = second.artifact at artifacts
  rw [artifacts, List.append_cancel_right_eq] at rest
  exact ⟨commons, definitions,
    (scriptFields_injective proper.sources other.sources lengths others rest).2⟩

/-! ## The launch -/

def launchFields (common : String) (root : PathBuf) (binding : Option Repository)
    (digest : String) (cwd : PathBuf) : List (List UInt8) :=
  [bytesOf "idk-approved-task-v1", bytesOf common, osBytes root,
    toVec (.optional binding Repository.toJson), bytesOf digest, osBytes cwd]

theorem launchPreimage_ok {project : Project} {task : TaskDefinition} {common : String}
    {bytes : List UInt8} : launchPreimage sha256 files project task common = .ok bytes ↔
      ∃ root digest cwd, files.canonicalize project.root = .ok root ∧
        taskDigest sha256 files project.shell task = .ok digest ∧
        files.canonicalize task.cwd = .ok cwd ∧ bytes = framed bigEndian
          (launchFields common root project.repositoryBinding digest cwd) := by
  have fields (root : PathBuf) (digest : String) (cwd : PathBuf) :
      hashField (hashField (hashField (hashField (hashField (hashField []
        (bytesOf "idk-approved-task-v1")) (bytesOf common)) (osBytes root))
        (toVec (.optional project.repositoryBinding Repository.toJson))) (bytesOf digest))
        (osBytes cwd) =
      framed bigEndian (launchFields common root project.repositoryBinding digest cwd) := by
    simp [launchFields, hashField_eq]
  rw [launchPreimage]
  constructor
  · intro run
    obtain ⟨root, rooted, run⟩ := bind_eq_ok.mp run
    obtain ⟨digest, known, run⟩ := bind_eq_ok.mp run
    obtain ⟨cwd, placed, run⟩ := bind_eq_ok.mp run
    cases run
    exact ⟨root, digest, cwd, rooted, known, placed, fields root digest cwd⟩
  · rintro ⟨root, digest, cwd, rooted, known, placed, rfl⟩
    refine bind_eq_ok.mpr ⟨root, rooted, bind_eq_ok.mpr ⟨digest, known,
      bind_eq_ok.mpr ⟨cwd, placed, ?_⟩⟩⟩
    rw [← fields]
    rfl

theorem launchFields_injective {common common_ digest digest_ : String}
    {root root_ cwd cwd_ : PathBuf} {binding binding_ : Option Repository}
    (roots : Proper root ∧ Proper root_) (cwds : Proper cwd ∧ Proper cwd_)
    (proper : ∀ repository ∈ binding, repository.Proper)
    (other : ∀ repository ∈ binding_, repository.Proper)
    (same : launchFields common root binding digest cwd =
      launchFields common_ root_ binding_ digest_ cwd_) :
    common = common_ ∧ root = root_ ∧ binding = binding_ ∧ digest = digest_ ∧ cwd = cwd_ := by
  simp only [launchFields, List.cons.injEq, true_and, and_true] at same
  obtain ⟨commons, rooted, bindings, digests, placed⟩ := same
  have jsons := toVec_injective (exact_optional Repository.exact_toJson)
    (exact_optional Repository.exact_toJson) bindings
  refine ⟨bytesOf_injective commons, osBytes_injective roots.1 roots.2 rooted, ?_,
    bytesOf_injective digests, osBytes_injective cwds.1 cwds.2 placed⟩
  cases binding with
  | none =>
    cases binding_ with
    | none => rfl
    | some there => cases jsons
  | some here =>
    cases binding_ with
    | none => cases jsons
    | some there => rw [Repository.toJson_injective (proper here rfl) (other there rfl) jsons]

/-! ## Approvals -/

theorem hexadecimal_injective {first second : List UInt8}
    (same : hexadecimal first = hexadecimal second) : first = second := by
  have digits : ∀ left < 16, ∀ right < 16, Nat.digitChar left = Nat.digitChar right →
      left = right := by decide
  have texts := congrArg String.toList same
  rw [hexadecimal, hexadecimal, String.toList_ofList, String.toList_ofList] at texts
  clear same
  induction first generalizing second with
  | nil =>
    cases second with
    | nil => rfl
    | cons byte rest => cases texts
  | cons byte rest inductionHypothesis =>
    cases second with
    | nil => cases texts
    | cons byte_ rest_ =>
      simp only [List.flatMap_cons, List.cons_append, List.nil_append, List.cons.injEq] at texts
      obtain ⟨high, low, later⟩ := texts
      have small := byte.toNat_lt
      have short := byte_.toNat_lt
      have high := digits _ (by omega) _ (by omega) high
      have low := digits _ (by omega) _ (by omega) low
      have bytes : byte = byte_ := UInt8.toNat_inj.mp (by omega)
      rw [bytes, inductionHypothesis later]

/-- What is launched, and the files that it is read from. -/
structure Launch where
  files : Files
  project : Project
  task : TaskDefinition
  common : String

namespace Launch

structure Proper (launch : Launch) : Prop where
  shell : launch.project.shell.Proper
  task : launch.task.Proper
  binding : ∀ repository ∈ launch.project.repositoryBinding, repository.Proper
  canonical : ∀ path found, launch.files.canonicalize path = .ok found → Model.Proper found

/-- What is hashed fits a length of 64 bits. -/
structure Fits (sha256 : List UInt8 → List UInt8) (launch : Launch) : Prop where
  shell : ∀ bytes, sourcePreimage launch.files launch.project.shell = .ok bytes →
    bytes.length < 2 ^ 64
  task : ∀ bytes, taskPreimage sha256 launch.files launch.project.shell launch.task = .ok bytes →
    bytes.length < 2 ^ 64
  launch : ∀ bytes, launchPreimage sha256 launch.files launch.project launch.task launch.common =
    .ok bytes → bytes.length < 2 ^ 64

/-- The shell and the scripts that it sources. -/
def SameShell (first second : Launch) : Prop :=
  first.project.shell.unapproved = second.project.shell.unapproved ∧
    first.project.shell.sources.mapM (readSource first.files) =
      second.project.shell.sources.mapM (readSource second.files)

/-- The definition and the scripts that it sources. -/
def SameTask (first second : Launch) : Prop :=
  first.task.unapproved = second.task.unapproved ∧
    first.task.sources.mapM (readSource first.files) =
      second.task.sources.mapM (readSource second.files)

/-- Where the task is run, and with which initialization. -/
structure SamePlace (first second : Launch) : Prop where
  common : first.common = second.common
  root : first.files.canonicalize first.project.root =
    second.files.canonicalize second.project.root
  binding : first.project.repositoryBinding = second.project.repositoryBinding
  cwd : first.files.canonicalize first.task.cwd = second.files.canonicalize second.task.cwd

variable {first second : Launch}

theorem sameShell {bytes : List UInt8} (proper : first.project.shell.Proper)
    (other : second.project.shell.Proper) (short : bytes.length < 2 ^ 64)
    (here : sourcePreimage first.files first.project.shell = .ok bytes)
    (there : sourcePreimage second.files second.project.shell = .ok bytes) :
    SameShell first second := by
  obtain ⟨left, read, rfl⟩ := sourcePreimage_ok.mp here
  obtain ⟨right, read_, same⟩ := sourcePreimage_ok.mp there
  have fields := framed_known sizes_bigEndian short same
  obtain ⟨shells, contents⟩ := shellFields_injective proper other (length_mapM read)
    (length_mapM read_) fields
  exact ⟨shells, by rw [read, read_, contents]⟩

theorem sameTask {bytes : List UInt8} (proper : first.task.Proper) (other : second.task.Proper)
    (short : bytes.length < 2 ^ 64)
    (here : taskPreimage sha256 first.files first.project.shell first.task = .ok bytes)
    (there : taskPreimage sha256 second.files second.project.shell second.task = .ok bytes) :
    SameTask first second ∧
      boundShell sha256 first.files first.project.shell first.task =
        boundShell sha256 second.files second.project.shell second.task := by
  obtain ⟨common, left, bound, read, rfl⟩ := taskPreimage_ok.mp here
  obtain ⟨common_, right, bound_, read_, same⟩ := taskPreimage_ok.mp there
  have fields := framed_known sizes_bigEndian short same
  have digest {files : Files} {launch : Launch} {common : Option String}
      (bound : boundShell sha256 files launch.project.shell launch.task = .ok common) :
      ∀ known ∈ common, ∃ bytes, known = hexadecimal bytes := by
    rintro known rfl
    obtain ⟨bytes, _, rfl⟩ := boundShell_hexadecimal bound
    exact ⟨_, rfl⟩
  obtain ⟨commons, tasks, contents⟩ := taskFields_injective proper other (digest bound)
    (digest bound_) (length_mapM read) (length_mapM read_) fields
  exact ⟨⟨tasks, by rw [read, read_, contents]⟩, by rw [bound, bound_, commons]⟩

theorem samePlace {bytes : List UInt8} (proper : first.Proper) (other : second.Proper)
    (short : bytes.length < 2 ^ 64)
    (here : launchPreimage sha256 first.files first.project first.task first.common = .ok bytes)
    (there : launchPreimage sha256 second.files second.project second.task second.common =
      .ok bytes) :
    SamePlace first second ∧
      taskDigest sha256 first.files first.project.shell first.task =
        taskDigest sha256 second.files second.project.shell second.task := by
  obtain ⟨root, digest, cwd, rooted, known, placed, rfl⟩ := launchPreimage_ok.mp here
  obtain ⟨root_, digest_, cwd_, rooted_, known_, placed_, same⟩ := launchPreimage_ok.mp there
  have fields := framed_known sizes_bigEndian short same
  obtain ⟨commons, roots, bindings, digests, cwds⟩ := launchFields_injective
    ⟨proper.canonical _ _ rooted, other.canonical _ _ rooted_⟩
    ⟨proper.canonical _ _ placed, other.canonical _ _ placed_⟩ proper.binding other.binding fields
  exact ⟨⟨commons, by rw [rooted, rooted_, roots], bindings, by rw [placed, placed_, cwds]⟩,
    by rw [known, known_, digests]⟩

/-- One digest approves one launch. -/
theorem approved (injective : Function.Injective sha256) {digest : String} (proper : first.Proper)
    (other : second.Proper) (fits : first.Fits sha256)
    (here : launchDigest sha256 first.files first.project first.task first.common = .ok digest)
    (there : launchDigest sha256 second.files second.project second.task second.common =
      .ok digest) :
    SamePlace first second ∧ SameTask first second ∧
      (first.task.execution = none → SameShell first second) := by
  -- the hashes agree, so what was hashed does, for the launch, the task and the shell
  have agree {left right : List UInt8} (same : hexadecimal (sha256 left) =
      hexadecimal (sha256 right)) : left = right := injective (hexadecimal_injective same)
  obtain ⟨bytes, hashed, run⟩ := bind_eq_ok.mp here
  obtain ⟨bytes_, hashed_, run_⟩ := bind_eq_ok.mp there
  cases run
  have launches : bytes = bytes_ := agree (Except.ok.inj run_).symm
  obtain ⟨place, digests⟩ := samePlace proper other (fits.launch _ hashed) hashed
    (launches ▸ hashed_)
  obtain ⟨_, digest, _, _, known, _, _⟩ := launchPreimage_ok.mp hashed
  obtain ⟨task, hashed, run⟩ := bind_eq_ok.mp known
  obtain ⟨task_, hashed_, run_⟩ := bind_eq_ok.mp (digests ▸ known)
  cases run
  have tasks : task = task_ := agree (Except.ok.inj run_).symm
  obtain ⟨definition, bounds⟩ := sameTask proper.task other.task (fits.task _ hashed) hashed
    (tasks ▸ hashed_)
  refine ⟨place, definition, fun execution => ?_⟩
  obtain ⟨common, _, bound, _, _⟩ := taskPreimage_ok.mp hashed
  have some_ : ∃ digest, common = some digest := by
    rw [boundShell, execution] at bound
    obtain ⟨digest, _, run⟩ := bind_eq_ok.mp bound
    cases run
    exact ⟨digest, rfl⟩
  obtain ⟨digest, rfl⟩ := some_
  obtain ⟨shell, hashed, left⟩ := boundShell_hexadecimal bound
  obtain ⟨shell_, hashed_, right⟩ := boundShell_hexadecimal (bounds ▸ bound)
  have shells : shell = shell_ := agree (left.symm.trans right)
  exact sameShell proper.shell other.shell (fits.shell _ hashed) hashed (shells ▸ hashed_)

end Launch

/-- The fields are known from what is hashed, and from the fields the shell, the task and the
    launch; so an approval belongs to one definition. -/
theorem preimages_injective :
    (∀ left right : List (List UInt8), (left.foldl hashField []).length < 2 ^ 64 →
      left.foldl hashField [] = right.foldl hashField [] → left = right) ∧
    (∀ (first second : Launch) (bytes : List UInt8), first.project.shell.Proper →
      second.project.shell.Proper → bytes.length < 2 ^ 64 →
      sourcePreimage first.files first.project.shell = .ok bytes →
      sourcePreimage second.files second.project.shell = .ok bytes → first.SameShell second) ∧
    (∀ (sha256 : List UInt8 → List UInt8) (first second : Launch) (bytes : List UInt8),
      first.task.Proper → second.task.Proper → bytes.length < 2 ^ 64 →
      taskPreimage sha256 first.files first.project.shell first.task = .ok bytes →
      taskPreimage sha256 second.files second.project.shell second.task = .ok bytes →
      first.SameTask second ∧ boundShell sha256 first.files first.project.shell first.task =
        boundShell sha256 second.files second.project.shell second.task) ∧
    (∀ (sha256 : List UInt8 → List UInt8) (first second : Launch) (bytes : List UInt8),
      first.Proper → second.Proper → bytes.length < 2 ^ 64 →
      launchPreimage sha256 first.files first.project first.task first.common = .ok bytes →
      launchPreimage sha256 second.files second.project second.task second.common = .ok bytes →
      first.SamePlace second ∧ taskDigest sha256 first.files first.project.shell first.task =
        taskDigest sha256 second.files second.project.shell second.task) ∧
    ∀ sha256 : List UInt8 → List UInt8, Function.Injective sha256 →
      ∀ (first second : Launch) (digest : String), first.Proper → second.Proper →
        first.Fits sha256 →
        launchDigest sha256 first.files first.project first.task first.common = .ok digest →
        launchDigest sha256 second.files second.project second.task second.common = .ok digest →
        first.SamePlace second ∧ first.SameTask second ∧
          (first.task.execution = none → first.SameShell second) := by
  refine ⟨fun left right short same => ?_,
    fun _ _ _ proper other short => Launch.sameShell proper other short,
    fun _ _ _ _ proper other short => Launch.sameTask proper other short,
    fun _ _ _ _ proper other short => Launch.samePlace proper other short,
    fun _ injective _ _ _ proper other fits => Launch.approved injective proper other fits⟩
  rw [foldl_hashField, List.nil_append] at short
  rw [foldl_hashField, foldl_hashField] at same
  exact framed_known sizes_bigEndian short same

/-! ### A task with an execution, and one without -/

def sampleFiles : Files where
  canonicalize path := .ok path
  metadata _ := .error "No such file or directory"
  opened _ := none

def sampleProject : Project where
  id := "demo"
  name := "demo"
  root := ["/", "demo"]
  repository := none
  repositoryBinding := none
  relatedRepositories := []
  defaultTerminal := none
  shell :=
    { native := none, executable := ["/", "bin", "csh"], login := false, initCwd := ["/"],
      sources := [], trustedDigest := none }
  terminals := []
  tasks := []
  editor := none

/-- With an execution and an artifact, or with neither: the fields are equally many. -/
def sampleTask (own : Bool) : TaskDefinition where
  execution := if own then some (.process ["/", "bin", "make"] [] []) else none
  id := "build"
  name := "build"
  command := if own then "" else "make"
  cwd := ["/", "demo"]
  sources := []
  artifact := if own then some ["/", "demo", "a"] else none
  approvedDigest := none
  steps := []
  failurePolicy := .stop
  logging := .raw
  interactive := false
  buildOutputs := []
  artifactFromTask := none
  timeoutSeconds := none

def sampleLaunch (own : Bool) : Launch := ⟨sampleFiles, sampleProject, sampleTask own, ""⟩

/-- The hash of the only text that is hashed here, the one of the shell. -/
def sampleSha256 (_ : List UInt8) : List UInt8 := [
  0x46, 0xc1, 0xce, 0x89, 0xf6, 0x41, 0xfa, 0x17, 0x54, 0xbf, 0x14, 0x1b,
  0x90, 0xc2, 0x04, 0xe2, 0x8d, 0x88, 0x10, 0x9e, 0xe2, 0x5e, 0xb9, 0xc0,
  0x46, 0xc4, 0x22, 0xa3, 0x0b, 0xc5, 0xe3, 0x13]

set_option maxRecDepth 8000 in
theorem preimages_sample :
    (taskFields none (sampleTask true) []).length =
      (taskFields (some (hexadecimal (sampleSha256 []))) (sampleTask false) []).length ∧
    ∃ bytes, taskPreimage sampleSha256 sampleFiles sampleProject.shell (sampleTask true) =
        .ok bytes ∧
      taskPreimage sampleSha256 sampleFiles sampleProject.shell (sampleTask false) ≠ .ok bytes := by
  refine ⟨by decide, _, taskPreimage_ok.mpr ⟨none, [], rfl, rfl, rfl⟩, fun there => ?_⟩
  have proper (own : Bool) : (sampleTask own).Proper := by
    cases own <;> exact ⟨by decide, by decide, by decide, by decide, by decide⟩
  have same := preimages_injective.2.2.1 sampleSha256 (sampleLaunch true) (sampleLaunch false) _
    (proper true) (proper false) (by decide)
    (taskPreimage_ok.mpr ⟨none, [], rfl, rfl, rfl⟩) there
  exact absurd same.1.1 (by decide)

end Idk.Model
