import ToolServer.Document.Display

/-!
# Plain values

A value made of what JSON has: dates and moments become texts, sets and pairs lists, bytes the text that
they are the UTF-8 form of, and the keys of maps texts.
-/

namespace ToolServer.Document

namespace Scalar

def plain : Scalar → Scalar
  | date d => text d.text
  | moment t => text t.isoText
  | bytes bs => text ((String.fromUTF8? ⟨bs.toArray⟩).getD "")
  | s => s

/-- A key as a text; truth values are written as in JSON. -/
def plainKey (s : Scalar) : String :=
  match s with
  | bool b => if b then "true" else "false"
  | s => s.plain.display

end Scalar

namespace Value

mutual
def plain : Value → Value
  | scalar s => scalar s.plain
  | list items => list (plainItems items)
  | map entries => map (Ordered.ofPairs (plainEntries entries))
  | set members => list (members.map fun s => scalar s.plain)
  | pair a b => list [plain a, plain b]
def plainItems : List Value → List Value
  | [] => []
  | v :: vs => plain v :: plainItems vs
def plainEntries : List (Scalar × Value) → Entries
  | [] => []
  | (k, v) :: rest => (.text k.plainKey, plain v) :: plainEntries rest
end

end Value

end ToolServer.Document
