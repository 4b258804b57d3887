import Idk.Model.Project

/-!
# The editor of a project

`validate_config` and `discover_editor` (`editor.rs`), and what `resolve_for` and `apply`
(`portable.rs`) make of the editor of a declaration, of the preferences and of the project
that is already stored.
-/

namespace Idk.Model

/-! ## Texts -/

/-- `value.replace(pattern, "")` with a nonempty pattern; `skip` characters of an occurrence
    are still to be left out. -/
def removeAll (pattern : List Char) : Nat → List Char → List Char
  | _, [] => []
  | skip + 1, _ :: rest => removeAll pattern skip rest
  | 0, char :: rest =>
    if pattern.isPrefixOf (char :: rest) then removeAll pattern (pattern.length - 1) rest
    else char :: removeAll pattern 0 rest

/-- `Path::new(text)`, without the parts that `components` drops. -/
def pathOf (text : String) : PathBuf :=
  let parts := (text.toList.splitOn '/').filter fun part => !part.isEmpty && part != ['.']
  (if text.toList.head? = some '/' then ["/"] else []) ++ parts.map String.ofList

def isAbsolute (path : PathBuf) : Bool := path.head? == some "/"

/-- `base.join(path)`. -/
def joinPath (base path : PathBuf) : PathBuf := if isAbsolute path then path else base ++ path

/-! ## The reviewed form of an editor -/

/-- The placeholders in braces; in a text a brace that is not code is written by its code. -/
def filePlaceholder : String := "\x7bfile\x7d"

def linePlaceholder : String := "\x7bline\x7d"

def columnPlaceholder : String := "\x7bcolumn\x7d"

/-- The text without its placeholders. -/
def withoutPlaceholders (argument : String) : List Char :=
  [filePlaceholder, linePlaceholder, columnPlaceholder].foldl
    (fun text placeholder => removeAll placeholder.toList 0 text) argument.toList

/-- The checks of one argument, at its index. -/
def checkArgument (delimiter index : Nat) (argument : String) : Result Unit := do
  ensure (argument.utf8ByteSize ≤ 8192 && !hasControl argument)
    "editor argument contains a control character or exceeds its bound"
  ensure (!contains argument filePlaceholder || argument == filePlaceholder && delimiter < index)
    ("\x7bfile\x7d must be one literal argument after --; " ++
      "command strings are not supported")
  ensure (!(withoutPlaceholders argument).any fun char => char == '{' || char == '}')
    "unknown editor placeholder"

/-- `validate_config`. -/
def validateConfig (config : EditorConfig) : Result Unit := do
  ensure (isAbsolute config.executable && config.args.length ≤ 64)
    "editor needs an absolute executable and at most 64 arguments"
  let delimiter ← context (config.args.findIdx? (· == "--"))
    "editor arguments need -- before the file placeholder"
  config.args.zipIdx.forM fun entry => checkArgument delimiter entry.2 entry.1
  ensure (config.args.countP (contains · filePlaceholder) == 1)
    "editor requires exactly one file placeholder"

/-! ## The arguments of a command -/

/-- `value.replace(pattern, replacement)` with a nonempty pattern; `skip` characters of an
    occurrence are still to be left out. -/
def replaceAll (pattern replacement : List Char) : Nat → List Char → List Char
  | _, [] => []
  | skip + 1, _ :: rest => replaceAll pattern replacement skip rest
  | 0, char :: rest =>
    if pattern.isPrefixOf (char :: rest) then
      replacement ++ replaceAll pattern replacement (pattern.length - 1) rest
    else char :: replaceAll pattern replacement 0 rest

/-- An argument that is not the file placeholder. -/
def expand (line column : Option Nat) (argument : String) : String :=
  let lined := replaceAll linePlaceholder.toList (toString (line.getD 1)).toList 0 argument.toList
  String.ofList
    (replaceAll columnPlaceholder.toList (toString (column.getD 1)).toList 0 lined)

/-- One round of the loop of `arguments`. -/
def buildArgument (file : String) (line column : Option Nat) (argument : String) :
    Result String := do
  ensure (!contains argument linePlaceholder || line.isSome)
    "configured editor needs a line number that this diagnostic does not provide"
  ensure (!contains argument columnPlaceholder || column.isSome)
    "configured editor needs a column number that this diagnostic does not provide"
  return if argument = filePlaceholder then file else expand line column argument

/-- `arguments`; the file is the path as the system has it, in bytes. -/
def arguments (config : EditorConfig) (file : List UInt8) (line column : Option Nat) :
    Result (List String) := do
  ensure (line.all (0 < ·) && column.all (0 < ·)) "invalid diagnostic position"
  let file ← context (String.fromUTF8? ⟨file.toArray⟩) "editor location is not UTF-8"
  config.args.mapM (buildArgument file line column)

/-! ## Programs -/

/-- What the file system and the environment say. -/
structure EditorSystem where
  environment : String → Option String
  /-- A file with an executable bit. -/
  isExecutable : PathBuf → Bool
  /-- The canonical path of a file that this user may execute. -/
  available : PathBuf → Option PathBuf
  /-- `executable`: the checks of the file and of its parents. -/
  trusted : PathBuf → Result Unit

variable (system : EditorSystem)

/-- Where a program is looked for. -/
def candidates (program : String) (base : PathBuf) : List PathBuf :=
  let path := pathOf program
  if isAbsolute path then [path]
  else if program.toList.contains '/' then [joinPath base path]
  else
    match system.environment "PATH" with
    | none => []
    | some paths => (paths.toList.splitOn ':').map fun entry =>
      joinPath (joinPath base (pathOf (String.ofList entry))) path

/-- `portable::resolve_program`. -/
def resolveProgram (program : String) (base : PathBuf) : Result PathBuf := do
  ensure (!program.isEmpty && !containsNul program) "executable must be nonempty without NUL"
  context ((candidates system program base).find? system.isExecutable)
    "executable unavailable; install it or set an explicit path (no substitute selected)"

/-- `discovery::resolve_program`. -/
def discoverProgram (program : String) (cwd : PathBuf) : Result PathBuf := do
  ensure (!program.isEmpty && !containsNul program) "empty or invalid executable"
  context ((candidates system program cwd).findSome? system.available)
    "selected executable is unavailable"

/-! ## Discovery -/

/-- Where `parse_editor_argv` stands. -/
structure ArgvState where
  args : List String
  current : List Char
  active : Bool
  quote : Option Char

/-- The bounds that are checked after each round. -/
def ArgvState.bounded (state : ArgvState) : Result ArgvState := do
  ensure (state.args.length ≤ 64 && (String.ofList state.current).utf8ByteSize ≤ 8192)
    "editor argv exceeds bounds"
  return state

def ArgvState.take (state : ArgvState) (chars : List Char) : ArgvState :=
  { state with current := state.current ++ chars, active := true }

def escapeChars : List Char := ['$', Char.ofNat 96, '"', '\\']

/-- The loop of `parse_editor_argv`. -/
def parseArgv (state : ArgvState) : List Char → Result ArgvState
  | [] => .ok state
  | char :: rest =>
    match state.quote with
    | some quote =>
      if char = quote then do
        parseArgv (← { state with quote := none : ArgvState }.bounded) rest
      else if quote = '"' ∧ char = '\\' then
        match rest with
        | [] => .error "unterminated editor escape"
        | next :: rest => do
          let chars := if escapeChars.contains next then [next] else ['\\', next]
          parseArgv (← { state with current := state.current ++ chars : ArgvState }.bounded) rest
      else do
        parseArgv (← { state with current := state.current ++ [char] : ArgvState }.bounded) rest
    | none =>
      if char = '\'' ∨ char = '"' then do
        parseArgv (← { state with quote := some char, active := true : ArgvState }.bounded) rest
      else if char = '\\' then
        match rest with
        | [] => .error "unterminated editor escape"
        | next :: rest => do parseArgv (← (state.take [next]).bounded) rest
      else if isWhitespace char then do
        let ended := { state with
          args := if state.active then state.args ++ [String.ofList state.current] else state.args
          current := if state.active then [] else state.current
          active := false }
        parseArgv (← ArgvState.bounded ended) rest
      else do
        parseArgv (← (state.take [char]).bounded) rest

/-- `parse_editor_argv`. -/
def parseEditorArgv (value : String) : Result (List String) := do
  ensure (value.utf8ByteSize ≤ 16 * 1024 && !hasControl value)
    "editor command is too long or contains control characters"
  let state ← parseArgv { args := [], current := [], active := false, quote := none } value.toList
  ensure state.quote.isNone "unterminated editor quote"
  let args := if state.active then state.args ++ [String.ofList state.current] else state.args
  ensure (args.length ≤ 64) "editor argv exceeds bounds"
  return args

structure EditorCandidate where
  config : EditorConfig
  origin : String
  available : Bool
  reason : Option String

def editorCandidate (config : EditorConfig) (origin : String) : EditorCandidate :=
  let result := do
    validateConfig config
    system.trusted config.executable
  { config := config
    origin := origin
    available := result.isOk
    reason := match result with
      | .ok () => none
      | .error error => some error }

/-- The editor that a variable names. -/
def variableCandidate (cwd : PathBuf) (name value : String) : Result EditorCandidate := do
  let argv ← parseEditorArgv value
  match argv with
  | [] => .error (name ++ " has no executable")
  | program :: argv => do
    ensure (!program.isEmpty) (name ++ " has no executable")
    let resolved := discoverProgram system program cwd
    let path := resolved.toOption.getD (joinPath cwd (pathOf program))
    let argv :=
      if argv.any (contains · filePlaceholder) then argv
      else (if argv.contains "--" then argv else argv ++ ["--"]) ++ [filePlaceholder]
    let candidate := editorCandidate system
      { executable := path, args := argv, externalGui := false } name
    match resolved with
    | .ok _ => return candidate
    | .error error => return { candidate with available := false, reason := some error }

/-- The first of the installed editors that may be used. -/
def installedCandidate (cwd : PathBuf) : Option EditorCandidate :=
  ["nvim", "vim", "vi", "nano", "emacs"].findSome? fun program =>
    match discoverProgram system program cwd with
    | .error _ => none
    | .ok path =>
      let candidate := editorCandidate system
        { executable := path, args := ["--", filePlaceholder], externalGui := false }
        "installed candidate"
      if candidate.available then some candidate else none

/-- `discover_editor` without a preference. -/
def discoverEditor (cwd : PathBuf) : Result (Option EditorCandidate) := do
  ensure (isAbsolute cwd) "editor discovery cwd must be absolute"
  let named := ["VISUAL", "EDITOR"].findSome? fun name =>
    ((system.environment name).filter (!isBlank ·)).map (name, ·)
  match named with
  | some (name, value) => return some (← variableCandidate system cwd name value)
  | none => return installedCandidate system cwd

/-! ## Resolving -/

structure EditorDeclaration where
  program : Option String
  args : Option (List String)
  externalGui : Option Bool
deriving DecidableEq, Repr

def applyEditor (editor : Option EditorConfig) (declaration : EditorDeclaration)
    (base : PathBuf) : Result EditorConfig := do
  let program ←
    match declaration.program with
    | some program => resolveProgram system program base
    | none => do
      let editor ← context editor "editor args require an editor program or user preference"
      pure editor.executable
  let args := (declaration.args.or (editor.map (·.args))).getD [filePlaceholder]
  let externalGui := (declaration.externalGui.or (editor.map (·.externalGui))).getD false
  return { executable := program, args := args, externalGui := externalGui }

/-- What the declaration says replaces what the preferences say, field by field. -/
def overridden (preferred declared : EditorDeclaration) : EditorDeclaration where
  program := declared.program.or preferred.program
  args := declared.args.or preferred.args
  externalGui := declared.externalGui.or preferred.externalGui

/-- What `resolve_for` reads of the editor's sources. -/
structure EditorSources where
  root : PathBuf
  configDir : PathBuf
  /-- `preferences.editor`. -/
  preferred : Option EditorDeclaration
  /-- The declaration, with its editor. -/
  declaration : Option (Option EditorDeclaration)
  /-- The project that is stored for the folder. -/
  existing : Option Project
  /-- The definitions of its binding, as last resolved. -/
  previous : Option Project

namespace EditorSources

variable (sources : EditorSources)

/-- The editor of the declaration and the preferences. -/
def applied : Result (Option EditorConfig) :=
  let declared := sources.declaration.join
  if sources.preferred.isSome || declared.isSome then do
    let preferred := sources.preferred.getD ⟨none, none, none⟩
    let declaration := declared.getD ⟨none, none, none⟩
    let base := if declaration.program.isSome then sources.root else sources.configDir
    return some (← applyEditor system none (overridden preferred declaration) base)
  else .ok none

/-- `local_overrides`, and what connecting a declaration to a stored project keeps. -/
def kept (editor : Option EditorConfig) : Option EditorConfig :=
  match sources.existing, sources.previous with
  | some existing, some previous =>
    if existing.editor ≠ previous.editor then existing.editor else editor
  | some existing, none => if sources.declaration.join.isNone then existing.editor else editor
  | none, _ => editor

/-- `discover_default_editor`. -/
def discovered (editor : Option EditorConfig) : Result (Option EditorConfig) :=
  match editor with
  | some editor => .ok (some editor)
  | none => do
    match ← discoverEditor system sources.root with
    | some candidate => return if candidate.available then some candidate.config else none
    | none => return none

end EditorSources

variable (isUuid : String → Bool)

/-- `resolve_for`; `rest` is what it makes of everything but the editor. -/
def resolveFor (sources : EditorSources) (rest : Result Project) : Result Project := do
  ensure (sources.previous.isNone || sources.declaration.isSome)
    ("managed idk.toml was removed; original local definitions preserved; " ++
      "restore the declaration before syncing")
  match sources.declaration, sources.existing with
  | none, some existing =>
    return { existing with editor := ← sources.discovered system existing.editor }
  | _, _ =>
    let project ← rest
    let applied ← sources.applied system
    let editor ← sources.discovered system (sources.kept applied)
    let project := { project with editor := editor }
    project.validate isUuid
    return project

/-- What `apply` stores: `save` checks every project of the workspace. -/
def applyResolved (sources : EditorSources) (rest : Result Project) : Result Project := do
  let project ← resolveFor system isUuid sources rest
  project.validate isUuid
  return project

end Idk.Model
