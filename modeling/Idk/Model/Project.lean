import Idk.Text

/-!
# The project model

`Project` and what it consists of, with `Project::validate` (`model.rs`).  An
environment is the list of a `BTreeMap`'s entries in the order of their keys; the
program is given the test for UUIDs.
-/

namespace Idk.Model

/-- `MAX_TERMINALS`. -/
def maxTerminals : Nat := 64

/-- `git::Repository`. -/
structure Repository where
  root : PathBuf
  gitDir : PathBuf
  commonDir : PathBuf
deriving DecidableEq, Repr

abbrev Environment := List (String × String)

structure NativeShell where
  args : List String
  env : Environment
deriving DecidableEq, Repr

inductive TaskExecution where
  | process (program : PathBuf) (args : List String) (env : Environment)
  | script (interpreter : PathBuf) (args : List String) (script : String) (env : Environment)
deriving DecidableEq, Repr

/-- `SourceSpec`. -/
structure SourceSpec where
  path : PathBuf
  args : List String
deriving DecidableEq, Repr

structure ShellConfig where
  native : Option NativeShell
  executable : PathBuf
  login : Bool
  initCwd : PathBuf
  sources : List SourceSpec
  trustedDigest : Option String
deriving DecidableEq, Repr

structure TerminalDefinition where
  id : String
  name : String
  cwd : PathBuf
  sources : List SourceSpec
  persistent : Bool
  trustedDigest : Option String
deriving DecidableEq, Repr

structure TaskStep where
  name : String
  command : String
deriving DecidableEq, Repr

inductive FailurePolicy where
  | stop
  | continue
deriving DecidableEq, Repr

inductive TaskLogging where
  | raw
  | disabled
deriving DecidableEq, Repr

structure TaskDefinition where
  execution : Option TaskExecution
  id : String
  name : String
  command : String
  cwd : PathBuf
  sources : List SourceSpec
  artifact : Option PathBuf
  approvedDigest : Option String
  steps : List TaskStep
  failurePolicy : FailurePolicy
  logging : TaskLogging
  interactive : Bool
  buildOutputs : List PathBuf
  artifactFromTask : Option String
  timeoutSeconds : Option Nat
deriving DecidableEq, Repr

structure EditorConfig where
  executable : PathBuf
  args : List String
  externalGui : Bool
deriving DecidableEq, Repr

structure Project where
  id : String
  name : String
  root : PathBuf
  repository : Option PathBuf
  repositoryBinding : Option Repository
  relatedRepositories : List Repository
  defaultTerminal : Option String
  shell : ShellConfig
  terminals : List TerminalDefinition
  tasks : List TaskDefinition
  editor : Option EditorConfig
deriving DecidableEq, Repr

/-! ## Validation -/

def occursIn (pattern : List Char) : List Char → Bool
  | [] => pattern.isEmpty
  | char :: rest => pattern.isPrefixOf (char :: rest) || occursIn pattern rest

/-- `value.contains(pattern)`. -/
def contains (value pattern : String) : Bool := occursIn pattern.toList value.toList

def containsNul (value : String) : Bool := value.toList.contains '\x00'

/-- `value.trim().is_empty()`. -/
def isBlank (value : String) : Bool := value.toList.all isWhitespace

def validateExecutionArguments (args : List String) (env : Environment) : Result Unit :=
  ensure (!(args.length > 1024 || args.any (fun arg => arg.utf8ByteSize > 65536 || containsNul arg) ||
      env.length > 1024 || env.any fun entry =>
        entry.1.isEmpty || entry.1.toList.any (fun char => char == '=' || char == '\x00') ||
          containsNul entry.2))
    "invalid execution arguments or environment"

def validateSources (paths : List SourceSpec) : Result Unit := do
  ensure (paths.length ≤ 32) "too many initialization scripts"
  paths.forM fun source => do
    absolutePath source.path
    ensure (source.args.length ≤ 64 &&
        source.args.all fun arg => arg.utf8ByteSize ≤ 8192 && !hasControl arg)
      "source arguments must be at most 64 literal values without control characters"

def validateRepository (repository : Repository) : Result Unit := do
  absolutePath repository.root
  absolutePath repository.gitDir
  absolutePath repository.commonDir

def TaskExecution.validate (execution : TaskExecution) : Result Unit := do
  let (program, args, env) ←
    match execution with
    | .process program args env => pure (program, args, env)
    | .script interpreter args text env => do
      ensure (!(text.isEmpty || text.utf8ByteSize > 65536 || containsNul text))
        "invalid task script"
      pure (interpreter, args, env)
  absolutePath program
  validateExecutionArguments args env

def EditorConfig.validate (editor : EditorConfig) : Result Unit := do
  absolutePath editor.executable
  ensure (editor.args.length ≤ 64 &&
    editor.args.all fun arg => !containsNul arg && arg.utf8ByteSize ≤ 8192) "invalid editor argv"
  ensure (editor.args.any (contains · "{file}")) "editor argv must contain {file}"

section

variable (isUuid : String → Bool)

def validId (value : String) : Result Unit := ensure (isUuid value) "invalid object id"

def TerminalDefinition.validate (terminal : TerminalDefinition) : Result Unit := do
  validId isUuid terminal.id
  validName terminal.name
  absolutePath terminal.cwd
  validateSources terminal.sources

def TaskStep.validate (step : TaskStep) : Result Unit := do
  validName step.name
  ensure (!(isBlank step.command || step.command.utf8ByteSize > 65536 || containsNul step.command))
    "invalid task step command"

def TaskDefinition.validate (task : TaskDefinition) : Result Unit := do
  validId isUuid task.id
  validName task.name
  absolutePath task.cwd
  validateSources task.sources
  task.execution.forM fun execution => do
    ensure (task.command.isEmpty && task.steps.isEmpty && task.sources.isEmpty)
      "process/script tasks cannot also contain legacy command, steps or sources"
    execution.validate
  ensure (!((task.execution.isNone && task.steps.isEmpty && isBlank task.command) ||
      task.command.utf8ByteSize > 65536 || containsNul task.command))
    "invalid task command"
  ensure (task.steps.length ≤ 64 && task.buildOutputs.length ≤ 32)
    "too many task steps or output paths"
  task.steps.forM TaskStep.validate
  task.buildOutputs.forM absolutePath
  task.artifactFromTask.forM (validId isUuid)
  ensure (task.timeoutSeconds.all fun seconds => 0 < seconds && seconds ≤ 604800)
    "task timeout must be 1–604800 seconds"
  ensure (!task.interactive || task.logging == .disabled)
    "interactive task must disable raw logging to protect echoed input"
  task.artifact.forM absolutePath

/-- The checks of one element of a collection whose ids are unique. -/
def checkUnique {α : Type} (check : α → Result Unit) (id : α → String) (ids : List String)
    (item : α) : Result (List String) := do
  check item
  ensure (!ids.contains (id item)) "duplicate terminal/task id"
  pure (id item :: ids)

def Project.validate (project : Project) : Result Unit := do
  validName project.name
  absolutePath project.root
  project.repository.forM absolutePath
  project.repositoryBinding.forM fun binding => do
    validateRepository binding
    ensure (project.repository == some binding.root)
      "primary repository path and observed binding disagree"
  let repositories := project.repositoryBinding.toList.map (·.gitDir)
  let _ ← project.relatedRepositories.foldlM (fun repositories binding => do
    validateRepository binding
    ensure (!repositories.contains binding.gitDir) "duplicate repository binding"
    pure (binding.gitDir :: repositories)) repositories
  absolutePath project.shell.executable
  absolutePath project.shell.initCwd
  validateSources project.shell.sources
  project.shell.native.forM fun native => do
    validateExecutionArguments native.args native.env
    ensure (!(project.shell.login || !project.shell.sources.isEmpty ||
        project.terminals.any (!·.sources.isEmpty)))
      ("native terminals use explicit argv and native startup; " ++
        "login/source require legacy csh mode")
  ensure (project.terminals.length ≤ maxTerminals && project.tasks.length ≤ 128)
    "project definition exceeds limits"
  let ids ← project.terminals.foldlM
    (checkUnique (TerminalDefinition.validate isUuid) (·.id)) []
  project.defaultTerminal.forM fun default =>
    ensure (project.terminals.any fun terminal => terminal.id == default && terminal.persistent)
      "default terminal must identify a persistent terminal"
  let _ ← project.tasks.foldlM (checkUnique (TaskDefinition.validate isUuid) (·.id)) ids
  project.editor.forM EditorConfig.validate

end

end Idk.Model
