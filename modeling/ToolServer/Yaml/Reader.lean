import ToolServer.Document.Value
import ToolServer.Yaml.Content
import ToolServer.Yaml.Lexer

/-!
# Reading YAML

A YAML text as a document value. The tree of nodes is made into values level by level: of several
faults the one nearest to the root is reported, and of those on one level the first.
-/

namespace ToolServer.Yaml

open Document (Scalar Value Entries)

/-- A fault and the level at which it is found. -/
abbrev Leveled := Nat × Refusal

/-- Put together two results; of two faults the one on the upper level counts. -/
def both {α β γ : Type} (f : α → β → γ) (a : Except Leveled α) (b : Except Leveled β) :
    Except Leveled γ :=
  match a, b with
  | .ok x, .ok y => .ok (f x y)
  | .error e, .ok _ => .error e
  | .ok _, .error e => .error e
  | .error d, .error e => .error (if e.1 < d.1 then e else d)

namespace Node

def isMergeKey : Node → Bool
  | scalar tag _ => tag == Tag.merge
  | seq tag _ => tag == Tag.merge
  | map tag _ => tag == Tag.merge

/-- A key with the default mark as its tag is text. -/
def plainKey : Node → Node
  | scalar tag text => scalar (if tag = Tag.value then Tag.str else tag) text
  | n => n

mutual
/-- The pairs of a mapping with those that merge keys bring in put in front: later merges behind
earlier ones, and in one list of mappings the first behind the others. -/
def merged : List (Node × Node) → Except Refusal (List (Node × Node) × List (Node × Node))
  | [] => .ok ([], [])
  | (k, v) :: rest =>
    if k.isMergeKey then do
      let brought ← broughtBy v
      let (front, own) ← merged rest
      return (brought ++ front, own)
    else do
      let (front, own) ← merged rest
      return (front, (k.plainKey, v) :: own)
/-- The pairs that the value of a merge key brings. -/
def broughtBy : Node → Except Refusal (List (Node × Node))
  | scalar _ _ => .error .notYaml
  | map _ pairs => do
    let (front, own) ← merged pairs
    return front ++ own
  | seq _ items => broughtByAll items
def broughtByAll : List Node → Except Refusal (List (Node × Node))
  | [] => .ok []
  | map _ pairs :: rest => do
    let (front, own) ← merged pairs
    return (← broughtByAll rest) ++ (front ++ own)
  | _ :: _ => .error .notYaml
end

def flatten (pairs : List (Node × Node)) : Except Refusal (List (Node × Node)) := do
  let (front, own) ← merged pairs
  return front ++ own

/-- The text of a scalar node, or of a mapping the text under its default mark. -/
def textOf : Node → Except Refusal String
  | scalar _ text => .ok text
  | seq _ _ => .error .notYaml
  | map _ pairs => textIn pairs
where
  textIn : List (Node × Node) → Except Refusal String
    | [] => .error .notYaml
    | (scalar tag _, v) :: rest => if tag = Tag.value then textOf v else textIn rest
    | _ :: rest => textIn rest

def tag : Node → String
  | scalar t _ | seq t _ | map t _ => t

/-- The scalar of a node whose tag makes one. -/
def toScalar? (n : Node) : Option (Except Refusal Scalar) :=
  (content? n.tag).map fun content => n.textOf.bind content

/-- A key must be a scalar. -/
def toKey (n : Node) : Except Refusal Scalar :=
  match n.toScalar? with
  | some s => s
  | none => .error .notYaml

end Node

def atLevel {α : Type} (level : Nat) (x : Except Refusal α) : Except Leveled α :=
  x.mapError (level, ·)

/-- Store the pairs of a mapping from the first on; equal keys are one key. -/
def entriesOf (pairs : List (Scalar × Value)) : Entries := Ordered.ofPairs pairs

/-- The value of a node that is met on a level; what a collection holds is met one level below it, and
`fuel` bounds the levels. -/
def valueAt : Nat → Nat → Node → Except Leveled Value
  | 0, level, _ => .error (level, .notYaml)
  | fuel + 1, level, n =>
    match n.toScalar? with
    | some s => atLevel level (s.map .scalar)
    | none =>
      let below := level + 1
      let pairsOf (pairs : List (Node × Node)) : Except Leveled (List (Scalar × Value)) := do
        let pairs ← atLevel below (Node.flatten pairs)
        pairs.foldr
          (fun (k, v) rest =>
            both (fun k' (v', ps) => (k', v') :: ps) (atLevel below k.toKey)
              (both Prod.mk (valueAt fuel below v) rest))
          (.ok [])
      let single (n : Node) : Except Leveled Value :=
        match n with
        | .map _ [(k, v)] =>
          both (fun k v => .pair k v) (valueAt fuel below k) (valueAt fuel below v)
        | _ => .error (below, .notYaml)
      if n.tag = Tag.seq then
        match n with
        | .seq _ items =>
          (items.foldr (fun x rest => both (· :: ·) (valueAt fuel below x) rest) (.ok [])).map .list
        | _ => .error (below, .notYaml)
      else if n.tag = Tag.map then
        match n with
        | .map _ pairs => (pairsOf pairs).map fun ps => .map (entriesOf ps)
        | _ => .error (below, .notYaml)
      else if n.tag = Tag.set then
        match n with
        | .map _ pairs => (pairsOf pairs).map fun ps => .set ((entriesOf ps).map (·.1))
        | _ => .error (below, .notYaml)
      else if n.tag = Tag.omap || n.tag = Tag.pairs then
        match n with
        | .seq _ items =>
          (items.foldr (fun x rest => both (· :: ·) (single x) rest) (.ok [])).map .list
        | _ => .error (below, .notYaml)
      else .error (level, .notYaml)

namespace Node

mutual
def height : Node → Nat
  | scalar _ _ => 1
  | seq _ items => heightOfAll items + 1
  | map _ pairs => heightOfPairs pairs + 1
def heightOfAll : List Node → Nat
  | [] => 0
  | n :: ns => max n.height (heightOfAll ns)
def heightOfPairs : List (Node × Node) → Nat
  | [] => 0
  | (k, v) :: ps => max (max k.height v.height) (heightOfPairs ps)
end

/-- The value of the root of a document. -/
def toValue (n : Node) : Except Refusal Value :=
  (valueAt (n.height + 1) 0 n).mapError (·.2)

end Node

/-- Read a YAML text; an empty text is null. -/
def read (text : String) : Except Refusal Value := do
  match tokens text.toList with
  | (_, some fault) => throw fault
  | (ts, none) =>
    match ← readDocument ts with
    | some n => n.toValue
    | none => return .null

end ToolServer.Yaml
