import ToolServer.Json.Reader
import ToolServer.Program.Check
import ToolServer.Text.Piece
import ToolServer.Toml.Reader
import ToolServer.Yaml.Reader

/-!
# Validity of generated files

Files are checked by the format that the ending of their name tells; files of other endings are not
checked.
-/

namespace ToolServer.Emit

/-- A file's name and content. -/
abbrev File := String × String

inductive Checker
  | program | json | toml | yaml
deriving DecidableEq, Repr

namespace Checker

/-- All checkers, in the order in which they run. -/
def all : List Checker := [program, json, toml, yaml]

def endings : Checker → List String
  | program => [".py"]
  | json => [".json"]
  | toml => [".toml"]
  | yaml => [".yaml", ".yml"]

def covers (c : Checker) (name : String) : Bool :=
  c.endings.any fun e => Text.endsWith name.toList e.toList

def checkProgram (text : String) : Option String :=
  if text.toList.all Text.isBlank || Program.isProgram text then none else some "SyntaxError"

def checkJson (text : String) : Except Fault (Option String) :=
  match Json.read text with
  | .ok _ => .ok none
  | .error (.notJson cause position) =>
    .ok (some ("JSONDecodeError: " ++ cause.message ++ " (line " ++
      Decimal.natText (Json.lineAt text.toList position) ++ ")"))
  | .error (.tooManyDigits _) | .error .halfCharacter => .error .badContent

def checkToml (text : String) : Except Fault (Option String) :=
  match Toml.read text with
  | .ok _ => .ok none
  | .error .notToml => .ok (some "TOMLDecodeError")
  | .error (.fault f) => .error f

def checkYaml (text : String) : Except Fault (Option String) :=
  match Yaml.read text with
  | .ok _ => .ok none
  | .error .notYaml => .ok (some "YAMLError")
  | .error (.content _) | .error .halfCharacter => .error .badContent
  | .error .cyclic => .error .unsupported
  | .error (.other f) => .error f

/-- What is wrong with a text, if anything. -/
def check (c : Checker) (text : String) : Except Fault (Option String) :=
  match c with
  | program => .ok (checkProgram text)
  | json => checkJson text
  | toml => checkToml text
  | yaml => checkYaml text

/-- The files that a checker covers and finds at fault, with what is wrong. -/
def run (c : Checker) : List File → Except Fault (List (String × String))
  | [] => .ok []
  | (name, text) :: files =>
    if c.covers name then do
      let message ← c.check text
      let found ← c.run files
      return (message.map ((name, ·))).toList ++ found
    else c.run files

end Checker

/-- The files at fault, by checker. -/
def invalidFiles (files : List File) : Except Fault (List (String × String)) := do
  return (← Checker.all.mapM (·.run files)).flatten

end ToolServer.Emit
