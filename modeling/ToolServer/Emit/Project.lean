import ToolServer.Emit.Python
import ToolServer.Emit.TypeScript

/-!
# Generated projects

The languages that a tool server can be generated in, and the files of the project.
-/

namespace ToolServer.Emit

inductive Language
  | python | typescript
deriving DecidableEq, Repr

/-- The languages by name, in order. -/
def languages : List (String × Language) := [("python", .python), ("typescript", .typescript)]

/-- The language of a name, in any case of letters. -/
def language? (name : String) : Option Language := languages.lookup (Text.lower name)

def unknownLanguage (name : String) : String :=
  "Unsupported language: " ++ name ++ " (expected one of: " ++ ", ".intercalate (languages.map (·.1)) ++ ")"

/-- The files of a tool server, with their names, in order. -/
def project (l : Language) (c : Config) : Except Fault (List (String × String)) :=
  match l with
  | .python => Python.files c
  | .typescript => TypeScript.files c

end ToolServer.Emit
