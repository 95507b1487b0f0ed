import ToolServer.Document.Display
import ToolServer.Schema.Kind
import ToolServer.Tool.Config

/-!
# Tool inputs from schemas

A schema as a tool input. An array has the input of its items, and an object those of its properties;
what is no map counts as the empty schema.
-/

namespace ToolServer

open Document Schema

/-- A number, or a truth value, which counts as one. -/
def numberOf? : Value → Option Scalar
  | .scalar (.int n) => some (.int n)
  | .scalar (.real x) => some (.real x)
  | .scalar (.bool b) => some (.bool b)
  | _ => none

/-- The text that describes a schema: the given one, or else its own. -/
def Property.describe (given : Option String) (schema : Entries) : Option String :=
  match nonempty given with
  | some s => some s
  | none =>
    let own := Entries.get schema "description"
    if own.isTruthy then some own.display else none

/-- The parts of a tool input that do not depend on schemas inside the schema. -/
def Property.base (description : Option String) (schema : Entries) : Property where
  type := inputType schema
  description := describe description schema
  enum := enumValues? schema
  default := Entries.get schema "default"
  minimum := numberOf? (Entries.get schema "minimum")
  maximum := numberOf? (Entries.get schema "maximum")
  format := match Entries.get schema "format" with
    | .text s => some s
    | _ => none

/-- The required names that an object declares, if any. -/
def requiredOf (schema : Entries) : Except Fault (Option (List Value)) :=
  let required := Entries.get schema "required"
  if required.isTruthy then required.elements.map some else .ok none

namespace Property

mutual
def ofValue (description : Option String) : Value → Except Fault Property
  | .map schema => do
    let plain := base description schema
    match kind schema with
    | .array => return { plain with items := ← itemsIn schema }
    | .object =>
      match ← propertiesIn schema with
      | some ps => return { plain with properties := some ps, required := ← requiredOf schema }
      | none => return plain
    | _ => return plain
  | _ => .ok (base description [])
/-- The input for the items of an array, where its schema has a map for them. -/
def itemsIn : List (Scalar × Value) → Except Fault (Option Property)
  | [] => .ok none
  | (k, v) :: rest =>
    if k == .text "items" then
      match v with
      | .map _ => do return some (← ofValue none v)
      | _ => .ok none
    else itemsIn rest
/-- The inputs for the properties of an object, where its schema has a map for them. -/
def propertiesIn : List (Scalar × Value) → Except Fault (Option (List (String × Property)))
  | [] => .ok none
  | (k, v) :: rest =>
    if k == .text "properties" then
      match v with
      | .map members => do return some (Ordered.ofPairs (← membersOf members))
      | _ => .ok none
    else propertiesIn rest
def membersOf : List (Scalar × Value) → Except Fault (List (String × Property))
  | [] => .ok []
  | (k, v) :: rest => do
    let p ← ofValue none v
    return (k.display, p) :: (← membersOf rest)
end

/-- The tool input that a schema describes. -/
def ofSchema (schema : Entries) (description : Option String := none) : Except Fault Property :=
  ofValue description (.map schema)

end Property

end ToolServer
