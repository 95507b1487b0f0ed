import ToolServer.Decimal.Digits
import ToolServer.Diff.Detail

/-!
# Changes between two tool servers

Tools and variables are matched by name. A removed tool breaks callers; a modified one may, by its
details. Summary, counts and notes are read off the changes.
-/

namespace ToolServer.Diff

open Decimal (natText)

inductive Change
  | metadata (details : List Detail)
  | toolAdded (name description : String)
  | toolRemoved (name description : String)
  | toolModified (name : String) (details : List Detail)
  | envAdded (name description : String) (required : Bool)
  | envRemoved (name : String)
deriving DecidableEq, Repr

inductive Severity
  | info | warning | breaking
deriving DecidableEq, Repr

def Severity.name : Severity → String
  | info => "info"
  | warning => "warning"
  | breaking => "breaking"

namespace Change

def kind : Change → String
  | metadata _ => "server_meta_changed"
  | toolAdded _ _ => "tool_added"
  | toolRemoved _ _ => "tool_removed"
  | toolModified _ _ => "tool_modified"
  | envAdded _ _ _ => "env_added"
  | envRemoved _ => "env_removed"

def severity : Change → Severity
  | toolRemoved _ _ => .breaking
  | toolModified _ details => if details.any (·.isBreaking) then .warning else .info
  | _ => .info

def toolName : Change → Option String
  | toolAdded name _ | toolRemoved name _ | toolModified name _ => some name
  | _ => none

def details : Change → Option (List Detail)
  | metadata details | toolModified _ details => some details
  | _ => none

/-- The sentence that tells of a change. -/
def text : Change → String
  | metadata _ => "Server metadata updated"
  | toolAdded name description => "New tool: " ++ name ++ " - " ++ truncated 80 description
  | toolRemoved name description => "Removed tool: " ++ name ++ " - " ++ truncated 80 description
  | toolModified name details =>
    "Modified tool: " ++ name ++ " (" ++ natText details.length ++ " change" ++
      (if details.length = 1 then "" else "s") ++ ")"
  | envAdded name description _ => "New env var: " ++ name ++ " - " ++ description
  | envRemoved name => "Removed env var: " ++ name

/-- What must be done about a change, if anything. -/
def note? : Change → Option String
  | toolRemoved name _ =>
    some ("Tool \"" ++ name ++ "\" was removed. Any automation referencing this tool will break.")
  | toolModified name details =>
    if details.any (·.isBreaking) then
      some ("Tool \"" ++ name ++ "\" has breaking parameter changes - verify automation compatibility.")
    else none
  | envAdded name _ true =>
    some ("New required env var \"" ++ name ++ "\" must be set before running the updated server.")
  | _ => none

def isToolAdded : Change → Bool | toolAdded _ _ => true | _ => false
def isToolRemoved : Change → Bool | toolRemoved _ _ => true | _ => false
def isToolModified : Change → Bool | toolModified _ _ => true | _ => false
def isEnvAdded : Change → Bool | envAdded _ _ _ => true | _ => false
def isEnvRemoved : Change → Bool | envRemoved _ => true | _ => false

end Change

structure Stats where
  toolsAdded : Nat
  toolsRemoved : Nat
  toolsModified : Nat
  toolsUnchanged : Nat
  envVarsAdded : Nat
  envVarsRemoved : Nat
deriving DecidableEq, Repr

/-- The changes, and the number of tools that did not change. -/
structure VersionDiff where
  changes : List Change
  unchanged : Nat
deriving DecidableEq, Repr

/-- Tools or variables by name: of one name the last counts, where the first stood. -/
def byName {α : Type} (name : α → String) (l : List α) : List (String × α) :=
  Ordered.ofPairs (l.map fun a => (name a, a))

def toolsByName (c : Config) : List (String × Tool) := byName (·.name) c.tools
def envsByName (c : Config) : List (String × EnvVar) := byName (·.name) c.envVars

/-- What differs in what a server says of itself. -/
def metadataDetails (old new : Config) : List Detail :=
  (if old.name = new.name then [] else [⟨"name", some old.name, some new.name⟩]) ++
  (if old.version = new.version then [] else [⟨"version", some old.version, some new.version⟩]) ++
  (if old.description = new.description then []
    else [⟨"description", some (truncated 60 old.description), some (truncated 60 new.description)⟩])

def metadataChange (old new : Config) : List Change :=
  let details := metadataDetails old new
  if details.isEmpty then [] else [.metadata details]

/-- The entries of the second map that the first has not. -/
def missing {α β : Type} (m : List (String × α)) (n : List (String × β)) : List (String × β) :=
  n.filter fun e => !Ordered.contains e.1 m

/-- The changes to tools that both versions have. -/
def modifiedTools (old : List (String × Tool)) : List (String × Tool) → Except Fault (List Change)
  | [] => .ok []
  | (name, new) :: rest => do
    let here ← match Ordered.get? name old with
      | some tool => do
        let differences ← toolDifferences tool new
        pure (if differences.isEmpty then []
          else [Change.toolModified name (differences.map (·.detail))])
      | none => pure []
    return here ++ (← modifiedTools old rest)

def compareConfigs (old new : Config) : Except Fault VersionDiff := do
  let oldTools := toolsByName old
  let newTools := toolsByName new
  let oldEnvs := envsByName old
  let newEnvs := envsByName new
  let modified ← modifiedTools oldTools newTools
  return {
    changes := metadataChange old new ++
      (missing oldTools newTools).map (fun e => .toolAdded e.1 e.2.description) ++
      (missing newTools oldTools).map (fun e => .toolRemoved e.1 e.2.description) ++
      modified ++
      (missing oldEnvs newEnvs).map (fun e => .envAdded e.1 e.2.description e.2.required) ++
      (missing newEnvs oldEnvs).map (fun e => .envRemoved e.1)
    unchanged := (newTools.filter fun e => Ordered.contains e.1 oldTools).length - modified.length }

namespace VersionDiff

def stats (d : VersionDiff) : Stats where
  toolsAdded := d.changes.countP (·.isToolAdded)
  toolsRemoved := d.changes.countP (·.isToolRemoved)
  toolsModified := d.changes.countP (·.isToolModified)
  toolsUnchanged := d.unchanged
  envVarsAdded := d.changes.countP (·.isEnvAdded)
  envVarsRemoved := d.changes.countP (·.isEnvRemoved)

def isCompatible (d : VersionDiff) : Bool := !d.changes.any (·.severity == .breaking)

def notes (d : VersionDiff) : List String := d.changes.filterMap (·.note?)

/-- A count with its word, unless it is zero. -/
def counted (n : Nat) (word : String) : List String := if n = 0 then [] else [natText n ++ " " ++ word]

def summary (d : VersionDiff) : String :=
  let s := d.stats
  let parts := counted s.toolsAdded "added" ++ counted s.toolsRemoved "removed" ++
    counted s.toolsModified "modified" ++ counted s.toolsUnchanged "unchanged"
  let tools := if parts.isEmpty then "No tool changes." else "Tools: " ++ ", ".intercalate parts ++ "."
  tools ++ (if d.isCompatible then " This update is backwards-compatible."
    else " This update contains breaking changes.")

end VersionDiff

end ToolServer.Diff
