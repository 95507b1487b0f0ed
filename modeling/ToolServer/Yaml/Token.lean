/-!
# Tokens of YAML

The units that a YAML text is made of. Blocks that are marked by indentation alone have tokens for
their start and end.
-/

namespace ToolServer.Yaml

inductive Directive
  | version (major minor : Nat)
  | tag (handle image : String)
  | reserved
deriving DecidableEq, Repr

inductive Token
  | streamEnd
  | directive (d : Directive)
  | documentStart | documentEnd
  | blockSequenceStart | blockMappingStart | blockEnd
  | flowSequenceStart | flowSequenceEnd
  | flowMappingStart | flowMappingEnd
  | blockEntry | flowEntry | key | value
  | alias (name : String)
  | anchor (name : String)
  | tag (handle : Option String) (suffix : String)
  | scalar (text : String) (plain : Bool)
deriving DecidableEq, Repr

end ToolServer.Yaml
