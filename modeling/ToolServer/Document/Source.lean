import ToolServer.Json.Reader
import ToolServer.Text.Piece
import ToolServer.Yaml.Reader

/-!
# Source texts

A document comes as JSON or YAML text, told apart by the first character that is not blank.
-/

namespace ToolServer.Document

inductive Format
  | json | yaml
deriving DecidableEq, Repr

def Format.name : Format → String
  | json => "json"
  | yaml => "yaml"

/-- A text that begins with a brace is JSON. -/
def detectFormat (text : String) : Format :=
  match Text.dropBlanks text.toList with
  | '{' :: _ => .json
  | _ => .yaml

/-- Why a text gave no document: a reason that can be told, or a fault that cannot. -/
inductive LoadFault
  | refused (reason : String)
  | fault (f : Fault)
deriving DecidableEq, Repr

def ofJson (text : String) : Except LoadFault Value :=
  match Json.read text with
  | .ok v => .ok v
  | .error (.notJson cause position) =>
    .error (.refused ("invalid JSON: " ++ cause.messageAt text.toList position))
  | .error (.tooManyDigits n) => .error (.refused (Decimal.tooManyDigitsMessage n))
  | .error .halfCharacter => .error (.fault .badContent)

def ofYaml (text : String) : Except LoadFault Value :=
  match Yaml.read text with
  | .ok v => .ok v
  | .error .notYaml => .error (.refused "invalid YAML")
  | .error (.content reason) => .error (.refused reason)
  | .error .halfCharacter => .error (.fault .badContent)
  | .error .cyclic => .error (.fault .unsupported)
  | .error (.other f) => .error (.fault f)

/-- Read a text in the format that it is in. -/
def load (text : String) : Except LoadFault Value :=
  match detectFormat text with
  | .json => ofJson text
  | .yaml => ofYaml text

end ToolServer.Document
