import ToolServer.Api.Parsing
import ToolServer.Form
import ToolServer.Tool.Mapping

/-!
# Composing several interfaces

The tool servers of several descriptions as one. The tools of each are named with its prefix, and so are
the variables that they read; a description that cannot be read is left out, and a tool whose name is
taken is skipped.
-/

namespace ToolServer.Composition

open Api Document

def maxSources : Nat := 20
def composedVersion : String := "1.0.0"
def defaultName : String := "composed-server"

/-- A description to compose, under a name. -/
structure Source where
  name : String
  text : String
  namePrefix : Option String
  disabledTools : List String
deriving Repr

/-- The prefix of a source's tools: its own, or one made of its name. -/
def Source.toolPrefix (s : Source) : String :=
  Naming.prefixOf ((nonempty s.namePrefix).getD s.name)

def Source.ofEntries? (e : Entries) : Option Source := do
  return {
    name := ← Form.field ["name"] Form.text e
    text := ← Form.field ["spec"] Form.text e
    namePrefix := ← Form.optional ["prefix"] Form.text e
    disabledTools := ← Form.fieldOr ["disabled_tools"] [] (Form.list Form.text) e }

def Source.ofValue? : Value → Option Source := Form.record Source.ofEntries?

/-- Why a source, or the whole list, was not composed. -/
inductive Problem
  | noSources
  | tooMany
  | duplicate (name taken : String)
  | unreadable (name path message : String)
deriving DecidableEq, Repr

namespace Problem

/-- The name of the source; a star stands for all. -/
def source : Problem → String
  | noSources | tooMany => "*"
  | duplicate name _ => name
  | unreadable name _ _ => name

def message : Problem → String
  | noSources => "No APIs provided"
  | tooMany => "Too many APIs (max 20)"
  | duplicate _ taken => "Duplicate API name \"" ++ taken ++ "\""
  | unreadable _ _ _ => "Failed to parse OpenAPI spec"

/-- Place and message of what could not be read. -/
def details : Problem → Option (List (String × String))
  | unreadable _ path message => some [(path, message)]
  | _ => none

end Problem

/-- What came of a composition. -/
structure Result where
  config : Config
  problems : List Problem
  warnings : List String
  composed : List String
deriving Repr

/-- What has been put together so far, with the name and prefix of each source that is in it. -/
structure Progress where
  tools : List Tool := []
  envVars : List EnvVar := []
  problems : List Problem := []
  warnings : List String := []
  composed : List (String × String) := []

def tagged (source text : String) : String := "[" ++ source ++ "] " ++ text

/-- Whether a tool is among those to turn off, by its name or its operation's identifier. -/
def isDisabled (t : Tool) (names : List String) : Bool :=
  names.any fun d => d == t.name || Text.lower d == t.name || some d == t.source.operationId

def variablePrefix (toolPrefix : String) : String := Text.upper toolPrefix

/-- The name of a tool under a prefix. -/
def prefixedName (toolPrefix name : String) : String :=
  String.ofList ((toolPrefix ++ "_" ++ name).toList.take Naming.maxToolName)

/-- A tool as it stands in the composition. -/
def prefixedTool (s : Source) (t : Tool) : Tool :=
  let start := variablePrefix s.toolPrefix
  { t with
    name := prefixedName s.toolPrefix t.name
    description := tagged s.name t.description
    enabled := t.enabled && !isDisabled t s.disabledTools
    handler := { t.handler with
      baseUrlEnvVar := some (start ++ "_API_BASE_URL")
      auth := t.handler.auth.map fun a => { a with envVar := start ++ "_" ++ a.envVar } } }

def prefixedEnv (s : Source) (v : EnvVar) : EnvVar :=
  { v with
    name := variablePrefix s.toolPrefix ++ "_" ++ v.name
    description := tagged s.name v.description }

namespace Progress

/-- Add a tool, or skip it with a warning if its name is taken. -/
def addTool (s : Source) (p : Progress) (t : Tool) : Progress :=
  let tool := prefixedTool s t
  if p.tools.any (·.name == tool.name) then
    { p with warnings := p.warnings ++ [tagged s.name ("Skipped duplicate tool: " ++ tool.name)] }
  else { p with tools := p.tools ++ [tool] }

def addEnv (s : Source) (p : Progress) (v : EnvVar) : Progress :=
  let env := prefixedEnv s v
  if p.envVars.any (·.name == env.name) then p else { p with envVars := p.envVars ++ [env] }

def addConfig (s : Source) (p : Progress) (c : Config) : Progress :=
  let p := c.envVars.foldl (addEnv s) (c.tools.foldl (addTool s) p)
  { p with composed := p.composed ++ [(s.name, s.toolPrefix)] }

/-- Add what a source holds, or the problem with it. -/
def addSource (p : Progress) (s : Source) : Except Fault Progress := do
  match ← parse s.text with
  | .refused path message => return { p with problems := p.problems ++ [.unreadable s.name path message] }
  | .parsed d warnings =>
    let p := { p with warnings := p.warnings ++ warnings.map (tagged s.name) }
    return p.addConfig s (← Config.ofDescription d)

end Progress

/-- The first source whose prefix an earlier one has. -/
def duplicate? : List String → List Source → Option Problem
  | _, [] => none
  | taken, s :: rest =>
    if taken.contains s.toolPrefix then some (.duplicate s.name s.toolPrefix)
    else duplicate? (s.toolPrefix :: taken) rest

/-- Why a list of sources is rejected before any is read. -/
def rejection? (sources : List Source) : Option Problem :=
  if sources.isEmpty then some .noSources
  else if sources.length > maxSources then some .tooMany
  else duplicate? [] sources

/-- The tool server that holds nothing. -/
def emptyConfig (serverName : Option String) : Config where
  name := match nonempty serverName with
    | some n => Naming.serverName n defaultName
    | none => defaultName
  version := composedVersion
  description := "Composed MCP server"
  baseUrl := ""
  tools := []
  envVars := []

/-- The name of a composition: the given one, or one made of the prefixes. -/
def composedName (serverName : Option String) (prefixes : List String) : String :=
  match nonempty serverName with
  | some n => Naming.serverName n defaultName
  | none => String.ofList (("composed-" ++ "-".intercalate prefixes).toList.take Naming.maxServerName)

def composedDescription (given : Option String) (names : List String) : String :=
  (nonempty given).getD ("Composed MCP server combining: " ++ ", ".intercalate names)

/-- The result of all sources. -/
def Progress.result (p : Progress) (serverName description : Option String) : Result where
  config :=
    if p.composed.isEmpty then emptyConfig serverName
    else {
      name := composedName serverName (p.composed.map (·.2))
      version := composedVersion
      description := composedDescription description (p.composed.map (·.1))
      baseUrl := ""
      tools := p.tools
      envVars := p.envVars }
  problems := p.problems
  warnings := p.warnings
  composed := p.composed.map (·.1)

/-- Compose sources into one tool server. -/
def compose (sources : List Source) (serverName description : Option String) : Except Fault Result := do
  match rejection? sources with
  | some problem => return ⟨emptyConfig serverName, [problem], [], []⟩
  | none => return (← sources.foldlM Progress.addSource {}).result serverName description

end ToolServer.Composition
