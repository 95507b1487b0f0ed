/-!
# Faults

What goes wrong when a part of a document does not have the form that the work on it needs. A fault
names the cause; it carries no text.
-/

namespace ToolServer

/-- The records whose fields are checked when one is built or read. -/
inductive RecordKind
  | source | parameter | requestBody | response | endpoint | server | scheme | requirement
  | description | property | inputSchema | tool | config
deriving DecidableEq, Repr

inductive Fault
  /-- An operation that values of this kind do not have. -/
  | unsupported
  /-- Members were asked of a value that has none. -/
  | noMembers
  /-- The right kind of value with the wrong content. -/
  | badContent
  /-- An entry that is not there. -/
  | noEntry
  /-- A position outside a sequence. -/
  | outOfRange
  /-- A number too large for what it stands for. -/
  | overflow
  /-- A record refused the fields that it was given. -/
  | rejected (record : RecordKind)
deriving DecidableEq, Repr

end ToolServer
