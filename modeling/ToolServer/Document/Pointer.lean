import ToolServer.Decimal.Written
import ToolServer.Document.Value
import ToolServer.Text.Piece

/-!
# Pointers

A local pointer is `#/` and the tokens of a path between slashes. In a token `~1` stands for a slash and
`~0` for a tilde. A token names an entry of a map, or a position of a list, counted from the end if it is
negative.
-/

namespace ToolServer.Document

open Text (cut replaceAll)

namespace Pointer

/-- What a token stands for. -/
def unescape (token : List Char) : List Char :=
  replaceAll ['~', '0'] ['~'] (replaceAll ['~', '1'] ['/'] token)

/-- The item at a position, or at a negative one from the end. -/
def item? (items : List Value) (i : Int) : Option Value :=
  let place := if i < 0 then i + items.length else i
  if place < 0 then none else items[place.toNat]?

/-- One step from a node to what a token names in it. -/
def step (token : List Char) : Value → Option Value
  | .map entries => Entries.get? entries (String.ofList token)
  | .list items =>
    match Decimal.readInt 10 token with
    | .ok i => item? items i
    | .error _ => none
  | _ => none

/-- Walk along tokens that are already unescaped. -/
def walk (node : Value) (tokens : List (List Char)) : Option Value :=
  tokens.foldlM (fun node token => step token node) node

/-- The tokens of a local pointer. -/
def tokens? (ref : String) : Option (List (List Char)) :=
  match ref.toList with
  | '#' :: '/' :: rest => some ((cut '/' rest).map unescape)
  | _ => none

end Pointer

/-- The node that a local pointer leads to; a null node counts as none. -/
def follow (root : Value) (ref : String) : Option Value := do
  let node ← Pointer.walk root (← Pointer.tokens? ref)
  if node.isNull then none else some node

end ToolServer.Document
