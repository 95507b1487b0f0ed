import ToolServer.Document.Value
import ToolServer.Fault

/-!
# Elements and pairs

Taking a value apart where a list or a map is expected: every value with elements gives them, a map its
keys and a text its characters, and a map can be put together from any values of two elements each.
-/

namespace ToolServer.Document

namespace Value

def ofChar (c : Char) : Value := text (String.singleton c)

/-- The elements of a value that has any. -/
def elements : Value → Except Fault (List Value)
  | list items => .ok items
  | map entries => .ok (entries.map fun (k, _) => scalar k)
  | set members => .ok (members.map scalar)
  | pair a b => .ok [a, b]
  | scalar (.text s) => .ok (s.toList.map ofChar)
  | scalar (.bytes bs) => .ok (bs.map fun b => int b.toNat)
  | scalar _ => .error .unsupported

/-- A value as a key. -/
def toKey : Value → Except Fault Scalar
  | scalar s => .ok s
  | _ => .error .unsupported

/-- Two elements as key and value. -/
def toEntry (v : Value) : Except Fault (Scalar × Value) := do
  match ← v.elements with
  | [k, w] => return (← k.toKey, w)
  | _ => .error .badContent

/-- The entries of a map, or of a value whose elements are pairs. -/
def toEntries : Value → Except Fault Entries
  | map entries => .ok entries
  | v => do return Ordered.ofPairs (← (← v.elements).mapM toEntry)

/-- The members of a value that is asked for members by name. -/
def members : Value → Except Fault Entries
  | map entries => .ok entries
  | _ => .error .noMembers

end Value

end ToolServer.Document
