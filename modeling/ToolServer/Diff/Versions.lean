import ToolServer.Api.Parsing
import ToolServer.Diff.Change
import ToolServer.Tool.Mapping

/-!
# Comparing two versions of a description

Both texts are read and mapped, and the tool servers compared. A text that cannot be read ends the
comparison.
-/

namespace ToolServer.Diff

open Api

inductive Side
  | old | new
deriving DecidableEq, Repr

def Side.name : Side → String
  | old => "old"
  | new => "new"

/-- Why two texts could not be compared. -/
inductive CompareFault
  /-- A text was refused, with its place and message. -/
  | unreadable (side : Side) (path message : String)
  | fault (f : Fault)
deriving DecidableEq, Repr

namespace CompareFault

def details : CompareFault → List String
  | unreadable _ path message => [path ++ ": " ++ message]
  | fault _ => []

def message : CompareFault → String
  | unreadable side path message =>
    "Failed to parse " ++ side.name ++ " spec: " ++ path ++ ": " ++ message
  | fault _ => ""

end CompareFault

/-- What came of a comparison. -/
structure Comparison where
  diff : VersionDiff
  old : Config
  new : Config

/-- The description in a text that must be one. -/
def description (side : Side) (r : Except Fault ParseResult) : Except CompareFault Description :=
  match r with
  | .ok (.parsed d _) => .ok d
  | .ok (.refused path message) => .error (.unreadable side path message)
  | .error f => .error (.fault f)

/-- Turn off the tools of the given names. -/
def disable (names : List String) (c : Config) : Config :=
  { c with tools := c.tools.map fun t => if names.contains t.name then { t with enabled := false } else t }

def compareTexts (old new : String) (disabled : List String) : Except CompareFault Comparison := do
  let a ← description .old (parse old)
  let b ← description .new (parse new)
  let a ← (Config.ofDescription a).mapError .fault
  let b ← (Config.ofDescription b).mapError .fault
  let b := disable disabled b
  let diff ← (compareConfigs a b).mapError .fault
  return ⟨diff, a, b⟩

end ToolServer.Diff
