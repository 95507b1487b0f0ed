import ToolServer.Json.Writer
import ToolServer.Text.Case
import ToolServer.Tool.Config

/-!
# Differences between two versions of a tool

What differs between two tools of one name, aspect by aspect, and the text that each difference is
reported with. A caller can break by what the text says: a parameter that is gone, a new one that is
required, another type, or another method.
-/

namespace ToolServer.Diff

open Document Text

/-- One aspect in which two versions of a tool differ. -/
inductive Difference
  | description (old new : String)
  | method (old new : String)
  | path (old new : String)
  | baseUrl (old new : String)
  | added (name : String) (required : Bool) (type : String)
  | removed (name type : String)
  | type (name old new : String)
  | required (name : String) (old new : Bool)
  | enum (name old new : String)
deriving DecidableEq, Repr

/-- A difference as it is reported: the field, and its values where there are any. -/
structure Detail where
  field : String
  oldValue : Option String
  newValue : Option String
deriving DecidableEq, Repr

/-- A text cut to a length, with three dots in the place of what is cut. -/
def truncated (limit : Nat) (s : String) : String :=
  let cs := s.toList
  if cs.length ≤ limit then s else String.ofList (cs.take (limit - 3)) ++ "..."

def flagText (b : Bool) : String := if b then "true" else "false"

namespace Difference

def detail : Difference → Detail
  | description old new => ⟨"description", some (truncated 60 old), some (truncated 60 new)⟩
  | method old new => ⟨"handler.method", some old, some new⟩
  | path old new => ⟨"handler.path", some old, some new⟩
  | baseUrl old new => ⟨"handler.baseUrl", some old, some new⟩
  | added name mandatory kind =>
    let status := if mandatory then "required" else "optional"
    ⟨"param." ++ name, none, some ("added (" ++ status ++ ", type: " ++ kind ++ ")")⟩
  | removed name kind =>
    ⟨"param." ++ name, some ("existed (type: " ++ kind ++ ")"), some "removed"⟩
  | type name old new => ⟨"param." ++ name ++ ".type", some old, some new⟩
  | required name old new => ⟨"param." ++ name ++ ".required", some (flagText old), some (flagText new)⟩
  | enum name old new => ⟨"param." ++ name ++ ".enum", some old, some new⟩

end Difference

namespace Detail

def isParameter (d : Detail) : Bool := "param.".toList.isPrefixOf d.field.toList

/-- Whether a detail can break existing callers, by its text. -/
def isBreaking (d : Detail) : Bool :=
  (d.isParameter && d.newValue == some "removed") ||
  (d.field.toList.count '.' == 1 && d.isParameter &&
    "added (required".toList.isPrefixOf (d.newValue.getD "").toList) ||
  ".type".toList.isSuffixOf d.field.toList ||
  d.field == "handler.method"

end Detail

def hasEnum (p : Property) : Bool := p.enum.any (!·.isEmpty)

/-- The values of an enumeration on one line. -/
def enumText (p : Property) : Except Fault String := Json.write (.list (p.enum.getD []))

/-- Parameters of the new version that the old one has not. -/
def addedTo (old new : InputSchema) : List Difference :=
  (new.properties.filter fun e => !Ordered.contains e.1 old.properties).map fun e =>
    .added e.1 (new.required.contains e.1) e.2.type

/-- Parameters of the old version that the new one has not. -/
def removedFrom (old new : InputSchema) : List Difference :=
  (old.properties.filter fun e => !Ordered.contains e.1 new.properties).map fun e =>
    .removed e.1 e.2.type

def enumDifference (name : String) (p q : Property) : Except Fault (List Difference) := do
  if (hasEnum p || hasEnum q) && p.enum != q.enum then
    return [.enum name (← enumText p) (← enumText q)]
  else return []

/-- What differs in a parameter of both versions. -/
def changedIn (old new : InputSchema) (name : String) (p q : Property) : Except Fault (List Difference) := do
  let was := old.required.contains name
  let is := new.required.contains name
  let enums ← enumDifference name p q
  return (if p.type = q.type then [] else [.type name p.type q.type]) ++
    (if was = is then [] else [.required name was is]) ++ enums

/-- What differs in the parameters of both versions. -/
def changedBetween (old new : InputSchema) : List (String × Property) → Except Fault (List Difference)
  | [] => .ok []
  | (name, q) :: rest => do
    let here ← match Ordered.get? name old.properties with
      | some p => changedIn old new name p q
      | none => pure []
    return here ++ (← changedBetween old new rest)

def schemaDifferences (old new : InputSchema) : Except Fault (List Difference) := do
  return addedTo old new ++ removedFrom old new ++ (← changedBetween old new new.properties)

/-- What differs in what a tool says and where it goes. -/
def handlerDifferences (old new : Tool) : List Difference :=
  (if old.description = new.description then [] else [.description old.description new.description]) ++
  (if upper old.handler.method = upper new.handler.method then []
    else [.method (upper old.handler.method) (upper new.handler.method)]) ++
  (if old.handler.path = new.handler.path then [] else [.path old.handler.path new.handler.path]) ++
  (if old.handler.baseUrl = new.handler.baseUrl then []
    else [.baseUrl old.handler.baseUrl new.handler.baseUrl])

def toolDifferences (old new : Tool) : Except Fault (List Difference) := do
  return handlerDifferences old new ++ (← schemaDifferences old.inputSchema new.inputSchema)

end ToolServer.Diff
