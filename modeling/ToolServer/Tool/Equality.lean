import ToolServer.Tool.Config

/-!
# Equality of tool servers

Two records are equal when their parts are. Maps are compared without regard to order, and plain data by
value.
-/

namespace ToolServer

open Document

/-- Maps of plain data that are equal without regard to order. -/
def sameEntries (a b : Option Entries) : Bool := a.map Value.map == b.map Value.map

instance : BEq Api.Scheme where
  beq a b := a.name == b.name && a.type == b.type && a.scheme == b.scheme &&
    a.bearerFormat == b.bearerFormat && a.location == b.location && a.paramName == b.paramName &&
    sameEntries a.flows b.flows && a.openIdConnectUrl == b.openIdConnectUrl &&
    a.description == b.description

namespace Property

/-- Equality of the parts that hold no other inputs. -/
def sameParts (p q : Property) : Bool :=
  p.type == q.type && p.description == q.description && p.enum == q.enum && p.default == q.default &&
    p.required == q.required && p.minimum == q.minimum && p.maximum == q.maximum &&
    p.format == q.format

mutual
def same : Property → Property → Bool
  | ⟨t, d, e, v, items, properties, r, lo, hi, f⟩, q =>
    sameParts ⟨t, d, e, v, none, none, r, lo, hi, f⟩ q && sameItems items q.items &&
      sameProperties properties q.properties
def sameItems : Option Property → Option Property → Bool
  | none, none => true
  | some p, some q => same p q
  | _, _ => false
def sameProperties : Option (List (String × Property)) → Option (List (String × Property)) → Bool
  | none, none => true
  | some ps, some qs => ps.length == qs.length && sameMembers ps qs
  | _, _ => false
/-- Every member of the first map is in the second. -/
def sameMembers : List (String × Property) → List (String × Property) → Bool
  | [], _ => true
  | (name, p) :: ps, qs =>
    (match Ordered.get? name qs with
      | some q => same p q
      | none => false) && sameMembers ps qs
end

instance : BEq Property := ⟨same⟩

end Property

instance : BEq InputSchema where
  beq a b := a.type == b.type && a.required == b.required &&
    Property.sameProperties (some a.properties) (some b.properties)

deriving instance BEq for Auth
deriving instance BEq for Handler
deriving instance BEq for Source
deriving instance BEq for Tool
deriving instance BEq for EnvVar
deriving instance BEq for Config

end ToolServer
