import ToolServer.Fault

/-!
# What a YAML text can be refused for

A text that breaks the grammar is not YAML, whatever the place. A text of the grammar may still hold
a scalar that its tag cannot make sense of.
-/

namespace ToolServer.Yaml

inductive Refusal
  | notYaml
  /-- A scalar with content that its tag refuses, and the reason. -/
  | content (reason : String)
  /-- An escape of half a character. A text of characters cannot hold it. -/
  | halfCharacter
  /-- An alias inside the node that it stands for. No value holds itself. -/
  | cyclic
  | other (fault : ToolServer.Fault)
deriving DecidableEq, Repr

end ToolServer.Yaml
