import ToolServer.Ordered

/-!
# Tables

What the statements of a TOML text build: tables with entries in order. How a table came to be decides
who may add to it later.
-/

namespace ToolServer.Toml

/-- How a table came to be. -/
inductive Origin
  /-- On the way to a table that a header opened. -/
  | passed
  /-- By a header of its own. -/
  | opened
  /-- By a dotted key, in a section counted from the start. -/
  | dotted (section_ : Nat)
deriving DecidableEq, Repr

inductive Entry
  | text (s : String)
  /-- Another scalar. -/
  | scalar
  /-- An array or a table inside a value: nothing may be added to it. -/
  | closed
  | table (origin : Origin) (entries : List (String × Entry))
  /-- Tables of one name, of which the last may still grow. -/
  | tables (last : List (String × Entry))

abbrev Entries := List (String × Entry)

/-- Replace the entry of a name by what it becomes, or add one. -/
def update? (name : String) (f : Option Entry → Option Entry) (es : Entries) : Option Entries :=
  (f (Ordered.get? name es)).map fun e => Ordered.put name e es

/-- Open the table of a header. -/
def openTable? : List String → Entries → Option Entries
  | [], _ => none
  | [name], es => update? name (fun
    | none => some (.table .opened [])
    | some (.table .passed es) => some (.table .opened es)
    | some _ => none) es
  | name :: rest, es => update? name (fun
    | none => (openTable? rest []).map (.table .passed)
    | some (.table origin es) => (openTable? rest es).map (.table origin)
    | some (.tables es) => (openTable? rest es).map .tables
    | some _ => none) es

/-- Add a table to those of a header's name. -/
def appendTable? : List String → Entries → Option Entries
  | [], _ => none
  | [name], es => update? name (fun
    | none | some (.tables _) => some (.tables [])
    | some _ => none) es
  | name :: rest, es => update? name (fun
    | none => (appendTable? rest []).map (.table .passed)
    | some (.table origin es) => (appendTable? rest es).map (.table origin)
    | some (.tables es) => (appendTable? rest es).map .tables
    | some _ => none) es

/-- Add an entry under a dotted key. The tables on the way are those that no header opened and no other
section made. -/
def addUnder? (section_ : Nat) (value : Entry) : List String → Entries → Option Entries
  | [], _ => none
  | [name], es => update? name (fun
    | none => some value
    | some _ => none) es
  | name :: rest, es => update? name (fun
    | none => (addUnder? section_ value rest []).map (.table (.dotted section_))
    | some (.table origin es) =>
      if origin = .passed || origin = .dotted section_ then
        (addUnder? section_ value rest es).map (.table (.dotted section_))
      else none
    | some _ => none) es

/-- Change the entries of the table that a header opened. -/
def within? (f : Entries → Option Entries) : List String → Entries → Option Entries
  | [], es => f es
  | name :: rest, es => update? name (fun
    | some (.table origin es) => (within? f rest es).map (.table origin)
    | some (.tables es) => (within? f rest es).map .tables
    | _ => none) es

/-- The entry at a path. -/
def lookup? : List String → Entries → Option Entry
  | [], _ => none
  | [name], es => Ordered.get? name es
  | name :: rest, es =>
    match Ordered.get? name es with
    | some (.table _ es) | some (.tables es) => lookup? rest es
    | _ => none

end ToolServer.Toml
