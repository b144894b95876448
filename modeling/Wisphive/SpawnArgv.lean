import Wisphive.BrickDetector
import Wisphive.EventFiles
import Wisphive.Foundation.Toml

/-! From a managed spawn request to the command line of the agent: the checks of the fields, the
argument vector, and the audit of a Codex vector. Each argument notes where its text is from. -/

namespace Wisphive
open Foundation

/-- Text of the operating system. It need not be UTF-8. -/
inductive OsText where
  | text (value : String)
  | raw (value : List UInt8)
  deriving DecidableEq, Repr

namespace OsText

def bytes : OsText → List UInt8
  | .text value => value.toList.flatMap String.utf8EncodeChar
  | .raw value => value

def toStr : OsText → Option String
  | .text value => some value
  | .raw _ => none

/-- The text would be read as a flag. -/
def dashed : OsText → Bool
  | .text value => value.toList.head? = some '-'
  | .raw value => value.head? = some 45

def rooted (path : OsText) : Bool :=
  path.bytes.head? = some 47

/-- The names of an absolute path. -/
def names (path : OsText) : List (List UInt8) :=
  (path.bytes.splitOn 47).filter fun name => name ≠ [] ∧ name ≠ [46]

/-- Whether a path is another one or inside it. -/
def startsWith (path root : OsText) : Bool :=
  path.rooted = root.rooted ∧ root.names <+: path.names

end OsText

/-- What resolving a path yields: an absolute path. -/
structure CanonicalPath where
  path : OsText
  absolute : path.rooted = true
  deriving DecidableEq, Repr

structure PathMetadata where
  isDir : Bool
  uid : Nat
  deriving DecidableEq, Repr

/-- What the daemon asks its host. The directory of the SSH keys is resolved where that is
possible, and there is none without a home. -/
structure SpawnHost where
  canonicalize : PathBuf → Option CanonicalPath
  metadata : CanonicalPath → Option PathMetadata
  sshDir : Option OsText
  daemonUid : Nat
  display : CanonicalPath → String

namespace SpawnArgv

def maxPromptBytes : Nat := 1024 * 1024
def maxSystemPromptBytes : Nat := 16 * 1024
def maxShortFlagBytes : Nat := 256
def maxToolFilters : Nat := 128

def systemPromptDenyPatterns : List String :=
  ["ignore previous instructions", "ignore all previous instructions", "disregard previous instructions",
    "bypasspermissions", "bypass wisphive", "disable wisphive", "skip human approval"]

def protectedRoots : List String :=
  ["/etc", "/usr", "/root", "/bin", "/sbin", "/System", "/Library", "/private/etc", "/private/var/root"]

def reject (bad : Prop) [Decidable bad] (message : String) : Except String Unit :=
  if bad then .error message else .ok ()

/-- A field that may be absent is checked where it is there. -/
def checked {Value : Type} (check : Value → Except String Unit) : Option Value → Except String Unit
  | some value => check value
  | none => .ok ()

/-! ### The fields -/

def beginsWithDash (text : String) : Bool :=
  text.toList.head? = some '-'

def validateMultiline (name value : String) (maxBytes : Nat) (allowEmpty : Bool) : Except String Unit := do
  reject (allowEmpty = false ∧ value = "") (name ++ " must not be empty")
  reject (maxBytes < value.utf8ByteSize) (name ++ " exceeds the " ++ toString maxBytes ++ "-byte limit")
  reject ('\x00' ∈ value.toList) (name ++ " must not contain NUL bytes")

def validateShortFlag (name value : String) : Except String Unit := do
  reject (EventIngest.trim value = "") (name ++ " must not be empty")
  reject (maxShortFlagBytes < value.utf8ByteSize) (name ++ " exceeds the " ++ toString maxShortFlagBytes ++ "-byte limit")
  reject (beginsWithDash value = true) (name ++ " must not begin with '-'")
  reject (value.toList.any BrickDetector.isControl = true) (name ++ " must not contain control characters")

def validateSystemPrompt (name value : String) : Except String Unit := do
  validateMultiline name value maxSystemPromptBytes false
  let normalized := value.toList.map Char.toLower
  match systemPromptDenyPatterns.find? fun pattern => Redact.contains normalized pattern.toList with
  | some pattern => .error (name ++ " contains blocked instruction-override pattern '" ++ pattern ++ "'")
  | none => .ok ()

def validateToolFilters (name : String) (tools : List String) : Except String Unit := do
  reject (tools = []) (name ++ " must not be an empty list")
  reject (maxToolFilters < tools.length) (name ++ " exceeds the " ++ toString maxToolFilters ++ "-entry limit")
  tools.forM (validateShortFlag name)

def validateProject (host : SpawnHost) (project : PathBuf) : Except String CanonicalPath := do
  match host.canonicalize project with
  | none => .error ("project path does not resolve: " ++ project.text)
  | some canonical =>
    match host.metadata canonical with
    | none => .error ("cannot inspect project path: " ++ host.display canonical)
    | some metadata =>
      reject (metadata.isDir = false) ("project path is not a directory: " ++ host.display canonical)
      reject (canonical.path.names = [] ∨ protectedRoots.any (fun root => canonical.path.startsWith (.text root)) = true)
        ("project path is inside a protected system directory: " ++ host.display canonical)
      reject (host.sshDir.any canonical.path.startsWith = true)
        ("project path must not be inside the user's SSH directory: " ++ host.display canonical)
      reject (metadata.uid ≠ host.daemonUid)
        ("project path is owned by uid " ++ toString metadata.uid ++ ", not daemon uid " ++ toString host.daemonUid ++ ": " ++
          host.display canonical)
      return canonical

def supportedReasoning : AgentType → List String
  | .claudeCode => ["low", "medium", "high", "xhigh", "max"]
  | .codex => ["minimal", "low", "medium", "high", "xhigh"]
  | .red | .localLlm => []

/-- The fields that a managed Codex spawn does not take, the first of which is named. -/
def unsupportedForCodex (req : SpawnAgentRequest) : List (Bool × String) :=
  [(req.name.isSome, "name"), (req.maxTurns.isSome, "max_turns"), (req.permissionMode.isSome, "permission_mode"),
    (req.systemPrompt.isSome, "system_prompt"), (req.appendSystemPrompt.isSome, "append_system_prompt"),
    (req.allowedTools.isSome, "allowed_tools"), (req.disallowedTools.isSome, "disallowed_tools"), (req.verbose, "verbose")]

/-- The canonical path takes the place of the request's project. -/
def validateSpawnRequest (host : SpawnHost) (req : SpawnAgentRequest) : Except String CanonicalPath := do
  reject (req.agentType ≠ .claudeCode ∧ req.agentType ≠ .codex) "managed spawn currently supports Claude Code and Codex"
  let project ← validateProject host req.project
  validateMultiline "prompt" req.prompt maxPromptBytes false
  reject (EventIngest.trim req.prompt = "") "prompt must not be empty"
  reject (beginsWithDash req.prompt = true) "prompt must not begin with '-' (would be ambiguous with an agent CLI flag)"
  checked (validateShortFlag "model") req.model
  checked (validateShortFlag "name") req.name
  checked (fun reasoning => reject (reasoning ∉ supportedReasoning req.agentType)
    ("reasoning '" ++ reasoning ++ "' is not supported by the selected agent CLI")) req.reasoning
  checked (fun turns => reject (¬ (1 ≤ turns ∧ turns ≤ 1000)) "max_turns must be between 1 and 1000") req.maxTurns
  checked (fun mode => reject (mode ∉ ["default", "plan"])
    "permission_mode must be 'default' or 'plan'; bypassPermissions is never allowed") req.permissionMode
  checked (validateSystemPrompt "system_prompt") req.systemPrompt
  checked (validateSystemPrompt "append_system_prompt") req.appendSystemPrompt
  checked (validateToolFilters "allowed_tools") req.allowedTools
  checked (validateToolFilters "disallowed_tools") req.disallowedTools
  reject (req.allowedTools.isSome ∧ req.disallowedTools.isSome) "allowed_tools and disallowed_tools cannot both be set"
  reject (req.continueSession = true) "continue_session is not allowed for managed spawns"
  reject (req.resume.isSome = true) "resume is not allowed for managed spawns"
  checked (fun format => reject (format ∉ ["text", "json", "stream-json"])
    "output_format must be one of text, json, or stream-json") req.outputFormat
  reject (req.agentType = .claudeCode ∧ req.outputFormat = some "stream-json" ∧ req.verbose = false)
    "Claude stream-json output requires verbose=true"
  match if req.agentType = .codex then (unsupportedForCodex req).find? (·.1) else none with
  | some (_, field) =>
    .error (field ++ " is not implemented for managed Codex spawns; refusing to launch with unconditional " ++
      "workspace-write semantics")
  | none => .ok project

/-! ### The argument vector -/

/-- An argument: a flag of the daemon, a value of the daemon's own, or text of the request. -/
inductive Argument where
  | flag (text : String)
  | own (text : String)
  | given (text : OsText)
  deriving DecidableEq, Repr

namespace Argument

def value : Argument → OsText
  | .flag text | .own text => .text text
  | .given text => text

end Argument

/-- A flag and its value, where the field is there. -/
def option (flag : String) (field : Option String) : List Argument :=
  match field with
  | some text => [.flag flag, .given (.text text)]
  | none => []

/-- A flag and all the values of a list. -/
def variadic (flag : String) (tools : Option (List String)) : List Argument :=
  match tools with
  | some tools => .flag flag :: tools.map fun tool => .given (.text tool)
  | none => []

def switch (flag : String) (on : Bool) : List Argument :=
  if on then [.flag flag] else []

/-- `default` leaves the mode unspecified. -/
def claudeArgs (req : SpawnAgentRequest) (sessionId : Uuid) : List Argument :=
  [.own "claude", .flag "-p", .flag "--setting-sources", .own "project", .flag "--dangerously-skip-permissions",
      .flag "--session-id", .own (uuidText sessionId)] ++
    option "--model" req.model ++ option "--name" req.name ++ option "--effort" req.reasoning ++
    option "--max-turns" (req.maxTurns.map toString) ++ option "--permission-mode" (req.permissionMode.filter (· ≠ "default")) ++
    option "--system-prompt" req.systemPrompt ++ option "--append-system-prompt" req.appendSystemPrompt ++
    variadic "--tools" req.allowedTools ++ variadic "--disallowedTools" req.disallowedTools ++
    option "--output-format" req.outputFormat ++ switch "--verbose" req.verbose ++
    [.flag "--", .given (.text req.prompt)]

def effortAssignment (reasoning : String) : String :=
  "model_reasoning_effort=\"" ++ reasoning ++ "\""

def codexArgs (req : SpawnAgentRequest) (project : CanonicalPath) : List Argument :=
  [.own "codex", .own "exec", .flag "--sandbox", .own "workspace-write", .flag "--skip-git-repo-check",
      .flag "--dangerously-bypass-hook-trust", .flag "-C", .given project.path] ++
    option "--model" req.model ++ option "--config" (req.reasoning.map effortAssignment) ++
    switch "--json" (req.outputFormat.any (· ∈ ["json", "stream-json"])) ++
    [.given (.text req.prompt)]

/-- The program and its arguments. The project is the resolved one. -/
def buildAgentCommand (req : SpawnAgentRequest) (project : CanonicalPath) (sessionId : Uuid) :
    Except String (List Argument) :=
  match req.agentType with
  | .claudeCode => .ok (claudeArgs req sessionId)
  | .codex => .ok (codexArgs req project)
  | .red | .localLlm => .error "managed spawn currently supports Claude Code and Codex"

def commandArgv (args : List Argument) : List OsText :=
  args.map Argument.value

/-! ### The audit -/

/-- The TOML reader, and how a text is quoted in a message. -/
structure OverrideHost where
  parse : String → Except String TomlTable
  debug : String → String

variable (host : OverrideHost)

/-- The one path of keys down to the sentinel. -/
def descend : Toml → Option (List String)
  | .table [(segment, value)] => if value.isTrue then some [segment] else (descend value).map (segment :: ·)
  | _ => none

def overrideError (assignment what : String) : String :=
  "Codex config override " ++ host.debug assignment ++ " " ++ what

def parseCodexOverrideKeyPath (assignment : String) : Except String (List String) :=
  match Redact.splitOnce '=' assignment.toList with
  | none =>
    .error (overrideError host assignment "is not `key=value`; the session hook inventory cannot be positively confirmed")
  | some (rawKey, _) =>
    let key := EventIngest.trim (String.ofList rawKey)
    if key = "" then
      .error (overrideError host assignment "has an empty key; the session hook inventory cannot be positively confirmed")
    else
      match host.parse (key ++ " = true") with
      | .error reason =>
        .error (overrideError host assignment ("has an invalid TOML key path (" ++ reason ++ "); the session hook inventory " ++
          "cannot be positively confirmed"))
      | .ok root =>
        match descend (.table root) with
        | some path => .ok path
        | none => .error (overrideError host assignment "does not contain one auditable key path")

def hookRelevantCodexOverride (assignment : String) : Except String Bool := do
  let path ← parseCodexOverrideKeyPath host assignment
  return path.head?.any (· ∈ ["hooks", "features", "plugins", "profile", "profiles"]) ||
    path.contains "allow_managed_hooks_only"

/-- An override is named as it was given. -/
def auditOverride (assignment arg : String) : Except String Unit := do
  let relevant ← hookRelevantCodexOverride host assignment
  reject (relevant = true)
    ("managed Codex argv carries a session-level config override `" ++ arg ++ "` that would change the audited hook " ++
      "inventory; refusing to spawn")

def stripPrefix? (mark text : String) : Option String :=
  if mark.toList <+: text.toList then some (String.ofList (text.toList.drop mark.length)) else none

/-- An override in the argument of its flag. -/
def inlineOverride (arg : String) : Option String :=
  (stripPrefix? "--config=" arg).or
    (((stripPrefix? "-c" arg).filter (· ≠ "")).map fun inline => (stripPrefix? "=" inline).getD inline)

/-- An argument that leads away from the audited inventory, with a value or without. -/
def leadsAway (arg : String) : Bool :=
  arg ∈ ["--enable", "--disable", "-p", "--profile", "--ignore-user-config"] ||
    (["--enable=", "--disable=", "--profile="].any fun mark => (stripPrefix? mark arg).isSome) ||
    ((stripPrefix? "-p" arg).filter (· ≠ "")).isSome

/-- One argument that is no value and no flag before a value. -/
def auditArg (arg : String) : Except String Unit :=
  match inlineOverride arg with
  | some inline => auditOverride host inline arg
  | none =>
    reject (leadsAway arg = true)
      ("managed Codex argv carries `" ++ arg ++ "`, which changes the effective hook/feature configuration away " ++
        "from the audited inventory; refusing to spawn")

def auditCodexArgs (expectConfigValue : Bool) : List OsText → Except String Unit
  | [] =>
    reject (expectConfigValue = true)
      ("managed Codex argv ends with `-c`/`--config` but no `key=value`; the session hook inventory cannot be " ++
        "positively confirmed")
  | arg :: rest =>
    match arg.toStr with
    | none =>
      .error ("managed Codex argv contains non-UTF-8 data; the session hook inventory cannot be positively confirmed")
    | some arg =>
      if expectConfigValue then do
        auditOverride host arg arg
        auditCodexArgs false rest
      else if arg = "-c" ∨ arg = "--config" then auditCodexArgs true rest
      else do
        auditArg host arg
        auditCodexArgs false rest

def auditCodexSessionArgv (args : List Argument) : Except String Unit :=
  auditCodexArgs host false (commandArgv args)

/-- The configuration overrides in a vector. -/
def configOverrides : List OsText → List OsText
  | flag :: value :: rest =>
    if flag = .text "-c" ∨ flag = .text "--config" then value :: configOverrides rest
    else ((flag.toStr.bind inlineOverride).map OsText.text).toList ++ configOverrides (value :: rest)
  | [arg] => ((arg.toStr.bind inlineOverride).map OsText.text).toList
  | [] => []

end SpawnArgv
end Wisphive
