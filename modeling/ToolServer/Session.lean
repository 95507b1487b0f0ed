import ToolServer.Diff.Change
import ToolServer.Emit.Project
import ToolServer.Tool.Equality
import ToolServer.Tool.Form

/-!
# Editing sessions

A tool server that is edited step by step, with the version that the edits are compared to. A step that
fails leaves both as they were.
-/

namespace ToolServer

structure Session where
  current : Config
  /-- What `current` is compared to. -/
  base : Config

inductive SessionStep
  | setEnabled (tool : String) (on : Bool)
  | renameTool (tool name : String)
  | describeTool (tool text : String)
  | setMethod (tool method : String)
  | dropTool (tool : String)
  | renameServer (name : String)
  | setVersion (version : String)
  | setDescription (text : String)
  /-- Give tools of one name different names. -/
  | distinctNames
  /-- Make the current version the one to compare to. -/
  | commit
  /-- Write the server and read it back. -/
  | writeAndRead
  | diff
  | generate (language file : String)
deriving DecidableEq, Repr

inductive SessionFault
  | noSuchTool
  | unknownLanguage (name : String)
  | noSuchFile
  | fault (f : Fault)
deriving DecidableEq, Repr

/-- What a step tells besides the new state. -/
inductive SessionAnswer
  | done
  | sameAsBase (same : Bool)
  | difference (d : Diff.VersionDiff)
  | file (content : String)

/-- Change the first tool of a name. -/
def modifyTool? (name : String) (f : Tool → Tool) : List Tool → Option (List Tool)
  | [] => none
  | t :: rest => if t.name == name then some (f t :: rest) else (modifyTool? name f rest).map (t :: ·)

/-- Remove the first tool of a name. -/
def dropTool? (name : String) : List Tool → Option (List Tool)
  | [] => none
  | t :: rest => if t.name == name then some rest else (dropTool? name rest).map (t :: ·)

namespace Session

def start (c : Config) : Session := ⟨c, c⟩

def withConfig (s : Session) (c : Config) : SessionAnswer × Session := (.done, { s with current := c })

/-- The session with other tools; none means that the tool asked for is not there. -/
def withTools? (s : Session) : Option (List Tool) → Except SessionFault (SessionAnswer × Session)
  | some tools => .ok (s.withConfig { s.current with tools })
  | none => .error .noSuchTool

/-- The content of one generated file. -/
def fileOf (language file : String) (c : Config) : Except SessionFault String := do
  match Emit.language? language with
  | none => throw (.unknownLanguage language)
  | some l =>
    match (← (Emit.project l c).mapError .fault).lookup file with
    | some content => return content
    | none => throw .noSuchFile

def step (s : Session) : SessionStep → Except SessionFault (SessionAnswer × Session)
  | .setEnabled tool on => s.withTools? (modifyTool? tool ({ · with enabled := on }) s.current.tools)
  | .renameTool tool name => s.withTools? (modifyTool? tool ({ · with name }) s.current.tools)
  | .describeTool tool text => s.withTools? (modifyTool? tool ({ · with description := text }) s.current.tools)
  | .setMethod tool method =>
    s.withTools? (modifyTool? tool (fun t => { t with handler := { t.handler with method } }) s.current.tools)
  | .dropTool tool => s.withTools? (dropTool? tool s.current.tools)
  | .renameServer name => .ok (s.withConfig { s.current with name := Naming.serverName name })
  | .setVersion version => .ok (s.withConfig { s.current with version })
  | .setDescription text => .ok (s.withConfig { s.current with description := text })
  | .distinctNames =>
    let names := Naming.distinct (s.current.tools.map (·.name))
    .ok (s.withConfig { s.current with
      tools := (s.current.tools.zip names).map fun (t, name) => { t with name } })
  | .commit => .ok (.done, start s.current)
  | .writeAndRead =>
    match Config.ofValue? s.current.toValue with
    | some c => .ok (.sameAsBase (c == s.base), { s with current := c })
    | none => .error (.fault (.rejected .config))
  | .diff => do return (.difference (← (Diff.compareConfigs s.base s.current).mapError .fault), s)
  | .generate language file => do return (.file (← fileOf language file s.current), s)

end Session

end ToolServer
