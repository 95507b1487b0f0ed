import ToolServer.Document.Elements

/-!
# Kinds of schemas

What a schema describes, from its declared type or, without one, from the keys it has. A schema of
which nothing is known counts as text.
-/

namespace ToolServer.Schema

open Document

inductive Kind
  | scalar | object | array | enum | unresolved
deriving DecidableEq, Repr

def Kind.name : Kind → String
  | scalar => "scalar"
  | object => "object"
  | array => "array"
  | enum => "enum"
  | unresolved => "unresolved"

/-- The types that a schema can declare and a tool input's type for each. -/
def inputTypes : List (String × String) := [
  ("string", "string"), ("integer", "number"), ("number", "number"), ("boolean", "boolean"),
  ("array", "array"), ("object", "object")]

def isKnownType (v : Value) : Option String :=
  match v with
  | .text s => if (inputTypes.lookup s).isSome then some s else none
  | _ => none

/-- The declared type; of a list of types the first that is not `null`. -/
def declaredType (schema : Entries) : Option String :=
  match Entries.get schema "type" with
  | .list types => (types.find? (· != .text "null")).bind isKnownType
  | v => isKnownType v

/-- The values of an enumeration that has any. -/
def enumValues? (schema : Entries) : Option (List Value) :=
  match Entries.get? schema "enum" with
  | some (.list (v :: vs)) => some (v :: vs)
  | _ => none

/-- The kind of a schema that is no enumeration. -/
def plainKind (schema : Entries) : Kind :=
  match declaredType schema with
  | some "object" => .object
  | some "array" => .array
  | some _ => .scalar
  | none =>
    if Entries.has schema "properties" then .object
    else if Entries.has schema "items" then .array
    else .unresolved

def kind (schema : Entries) : Kind :=
  if (enumValues? schema).isSome then .enum else plainKind schema

/-- The type of the tool input that a schema describes. -/
def inputType (schema : Entries) : String :=
  match kind schema with
  | .object => "object"
  | .array => "array"
  | .unresolved => "string"
  | .scalar | .enum => (inputTypes.lookup ((declaredType schema).getD "string")).getD "string"

end ToolServer.Schema
