import ToolServer.Document.Elements

/-!
# Flattening compositions

A schema with a list under `allOf` becomes one schema. Its branches are merged from left to right:
properties and required names come together, a later branch overriding a property; every other key of
a branch counts only where the schema has none yet. Schemas inside a schema are flattened too.
-/

namespace ToolServer.Schema

open Document

/-- Keys whose value is a schema. -/
def schemaKeys : List String := ["items", "additionalProperties", "not"]

/-- Keys whose value is a list of schemas. -/
def schemaListKeys : List String := ["oneOf", "anyOf"]

/-- Keys that a branch gives where the schema has none. -/
def branchKeys : List String := [
  "type", "format", "enum", "default", "example", "nullable", "items", "minimum", "maximum",
  "minLength", "maxLength", "pattern"]

def isOneOf (names : List String) (k : Scalar) : Bool :=
  match k with
  | .text s => names.contains s
  | _ => false

/-- What merging has gathered: the schema so far, its properties and required names, and whether any
properties were declared. -/
structure Merge where
  schema : Entries
  properties : Entries
  required : List Value
  declares : Bool

namespace Merge

/-- Take a key of a branch unless the schema has it. -/
def adopt (branch : Entries) (schema : Entries) (name : String) : Entries :=
  match Entries.get? branch name with
  | some v => if Entries.has schema name then schema else schema ++ [(.text name, v)]
  | none => schema

def addRequired (required : List Value) (name : Value) : List Value :=
  if required.contains name then required else required ++ [name]

/-- Merge a flattened branch; one that is no map counts for nothing. -/
def add (m : Merge) : Value → Except Fault Merge
  | .map branch => do
    let (properties, declares) ← match Entries.get? branch "properties" with
      | some more => do pure (Ordered.putAll m.properties (← more.toEntries), true)
      | none => pure (m.properties, m.declares)
    let names ← ((Entries.get? branch "required").getD (.list [])).elements
    return {
      schema := (branchKeys ++ ["description"]).foldl (adopt branch) m.schema
      properties, declares
      required := names.foldl addRequired m.required }
  | _ => .ok m

/-- Begin with the schema that has the branches. -/
def start (schema : Entries) : Except Fault Merge := do
  let properties ← ((Entries.get? schema "properties").getD (.map [])).toEntries
  let required ← ((Entries.get? schema "required").getD (.list [])).elements
  return { schema, properties, required, declares := !properties.isEmpty }

/-- The merged schema: an object where properties were declared or no type was given. -/
def finish (m : Merge) : Entries :=
  let schema := if m.declares || !(Entries.has m.schema "type") then
    Ordered.put (.text "type") (.text "object") m.schema else m.schema
  let schema := if m.declares then Ordered.put (.text "properties") (.map m.properties) schema
    else schema
  if m.required.isEmpty then schema else Ordered.put (.text "required") (.list m.required) schema

end Merge

mutual
/-- A schema without compositions. -/
def flatten : Value → Except Fault Value
  | .map entries => do
    let kept ← flattenEntries entries
    return .map (← compose kept entries)
  | v => .ok v
/-- The entries of a schema apart from its composition, with the schemas in them flattened. -/
def flattenEntries : List (Scalar × Value) → Except Fault Entries
  | [] => .ok []
  | (k, v) :: rest =>
    if k == .text "allOf" then flattenEntries rest
    else do
      let w ← if isOneOf schemaKeys k then flatten v else flattenInside k v
      return (k, w) :: (← flattenEntries rest)
/-- The value of a key that may hold several schemas. -/
def flattenInside (k : Scalar) : Value → Except Fault Value
  | .list items =>
    if isOneOf schemaListKeys k then do return .list (← flattenItems items) else .ok (.list items)
  | .map entries =>
    if k == .text "properties" then do return .map (← flattenValues entries)
    else .ok (.map entries)
  | v => .ok v
def flattenItems : List Value → Except Fault (List Value)
  | [] => .ok []
  | v :: vs => do
    let w ← flatten v
    return w :: (← flattenItems vs)
def flattenValues : List (Scalar × Value) → Except Fault Entries
  | [] => .ok []
  | (k, v) :: rest => do
    let w ← flatten v
    return (k, w) :: (← flattenValues rest)
/-- Merge the branches found among the entries of a schema into the rest of it. -/
def compose (kept : Entries) : List (Scalar × Value) → Except Fault Entries
  | [] => .ok kept
  | (k, .list branches) :: rest =>
    if k == .text "allOf" then do
      let start ← Merge.start kept
      return (← mergeBranches start branches).finish
    else compose kept rest
  | _ :: rest => compose kept rest
def mergeBranches (m : Merge) : List Value → Except Fault Merge
  | [] => .ok m
  | b :: bs => do
    let branch ← flatten b
    mergeBranches (← m.add branch) bs
end

end ToolServer.Schema
