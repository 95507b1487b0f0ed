import ToolServer.Api.Description
import ToolServer.Document.Elements

/-!
# Checked records

The records of a description check what they are given: names under which a schema keeps its parts must
be texts, and so must scopes. Bytes count as the text that they are the UTF-8 form of.
-/

namespace ToolServer.Api

open Document

def keyText? : Scalar → Option String
  | .text s => some s
  | .bytes bs => String.fromUTF8? ⟨bs.toArray⟩
  | _ => none

def textOf? : Value → Option String
  | .scalar s => keyText? s
  | _ => none

/-- A map all of whose keys are texts. -/
def textKeyed? (entries : Entries) : Option Entries :=
  (entries.mapM fun entry => (keyText? entry.1).map fun s => (Scalar.text s, entry.2)).map Ordered.ofPairs

def texts? (items : List Value) : Option (List String) := items.mapM textOf?

/-- What a record was given, or that it refused it. -/
def checked {α : Type} (record : RecordKind) (x : Option α) : Except Fault α :=
  match x with
  | some a => .ok a
  | none => .error (.rejected record)

end ToolServer.Api
