import ToolServer.Document.Pointer

/-!
# Resolving references

A map with a text under `$ref` stands for the node that the text points to. Resolving a node puts the
nodes in place of their references. Each reference is resolved once and remembered; while its own target
is being resolved it stands for a placeholder, so that a cycle ends there. Below a fixed depth the
remaining references are dropped.
-/

namespace ToolServer.Reference

open Document

/-- The greatest depth, counting list items, map entries and references, that is resolved. -/
def maxDepth : Nat := 50

inductive Warning
  | tooDeep
  | unresolvable (ref : String)
deriving DecidableEq, Repr

def Warning.message : Warning → String
  | tooDeep => "Maximum reference depth (50) exceeded; nested schema truncated"
  | unresolvable ref => "Unresolvable reference: " ++ ref

/-- What has been resolved so far, and what was wrong. -/
structure Memory where
  cache : List (String × Value)
  warnings : List Warning

namespace Memory

def empty : Memory := ⟨[], []⟩

def warn (m : Memory) (w : Warning) : Memory :=
  if m.warnings.contains w then m else { m with warnings := m.warnings ++ [w] }

def get? (m : Memory) (ref : String) : Option Value := Ordered.get? ref m.cache

def put (m : Memory) (ref : String) (v : Value) : Memory :=
  { m with cache := Ordered.put ref v m.cache }

end Memory

/-- What stands for a reference inside its own target. -/
def placeholder (ref : String) : Value :=
  .map [(.text "type", .text "object"), (.text "description", .text ("Circular reference to " ++ ref))]

mutual
/-- A node without its references. -/
def strip : Value → Value
  | .list items => .list (stripItems items)
  | .map entries => .map (stripEntries entries)
  | v => v
def stripItems : List Value → List Value
  | [] => []
  | v :: vs => strip v :: stripItems vs
def stripEntries : List (Scalar × Value) → Entries
  | [] => []
  | (k, v) :: rest => if k == .text "$ref" then stripEntries rest else (k, strip v) :: stripEntries rest
end

/-- Apply a function that changes a state to the elements of a list in turn. -/
def mapWith {α β σ : Type} (f : α → σ → β × σ) : List α → σ → List β × σ
  | [], s => ([], s)
  | x :: xs, s =>
    let (y, s) := f x s
    let (ys, s) := mapWith f xs s
    (y :: ys, s)

/-- The text under `$ref`. -/
def refOf? (entries : Entries) : Option String :=
  match Entries.get? entries "$ref" with
  | some (.text ref) => some ref
  | _ => none

/-- Resolve a node with room for so many more levels. -/
def resolveIn (root : Value) : Nat → Value → Memory → Value × Memory
  | 0, v, m => (strip v, m.warn .tooDeep)
  | room + 1, v, m =>
    match v with
    | .list items =>
      let (items, m) := mapWith (resolveIn root room) items m
      (.list items, m)
    | .map entries =>
      match refOf? entries with
      | some ref =>
        match m.get? ref with
        | some known => (known, m)
        | none =>
          match follow root ref with
          | none => (.map [], m.warn (.unresolvable ref))
          | some target =>
            let (v, m) := resolveIn root room target (m.put ref (placeholder ref))
            (v, m.put ref v)
      | none =>
        let (entries, m) := mapWith
          (fun (k, v) m => let (v, m) := resolveIn root room v m; ((k, v), m)) entries m
        (.map entries, m)
    | v => (v, m)

/-- Resolve a node of a document. -/
def resolve (root : Value) (v : Value) (m : Memory) : Value × Memory :=
  resolveIn root (maxDepth + 1) v m

end ToolServer.Reference
