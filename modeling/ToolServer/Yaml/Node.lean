import ToolServer.Yaml.Refusal
import ToolServer.Yaml.Name
import ToolServer.Yaml.Tag
import ToolServer.Yaml.Token

/-!
# From tokens to nodes

The tree of tagged nodes that a sequence of tokens describes. An alias stands for a copy of the node
that its anchor named before, which must be complete. A text holds at most one document.
-/

namespace ToolServer.Yaml

inductive Node
  | scalar (tag : String) (text : String)
  | seq (tag : String) (items : List Node)
  | map (tag : String) (pairs : List (Node × Node))
deriving Repr, Inhabited

/-- What is left to read, the names of all anchors so far, the anchors whose node is complete, and the
handles of tags. -/
structure Reading where
  tokens : List Token
  names : List String
  anchors : List (String × Node)
  handles : List (String × String)

abbrev Step := Except Refusal (Node × Reading)

namespace Reading

def peek (r : Reading) : Option Token := r.tokens.head?

def at? (r : Reading) (ts : List Token) : Bool := r.peek.any ts.contains

def next (r : Reading) : Reading := { r with tokens := r.tokens.tail }

/-- Take one token that must be there. -/
def take (r : Reading) (t : Token) : Except Refusal Reading := do
  require (r.peek == some t)
  return r.next

/-- The full tag of a handle and its suffix. -/
def fullTag (r : Reading) (handle : Option String) (suffix : String) : Except Refusal String :=
  match handle with
  | none => .ok suffix
  | some h => match r.handles.lookup h with
    | some image => .ok (image ++ suffix)
    | none => .error .notYaml

/-- An anchor and a tag before a node, in either order, each at most once. -/
def properties (r : Reading) : Except Refusal (Option String × Option String × Reading) := do
  match r.tokens with
  | .anchor a :: .tag h s :: rest => return (a, ← r.fullTag h s, { r with tokens := rest })
  | .anchor a :: rest => return (a, none, { r with tokens := rest })
  | .tag h s :: .anchor a :: rest => return (a, ← r.fullTag h s, { r with tokens := rest })
  | .tag h s :: rest => return (none, ← r.fullTag h s, { r with tokens := rest })
  | _ => return (none, none, r)

/-- A name may be an anchor once. -/
def declare (r : Reading) (anchor : Option String) : Except Refusal Reading :=
  match anchor with
  | none => .ok r
  | some a => if r.names.contains a then .error .notYaml else .ok { r with names := a :: r.names }

def bind (r : Reading) (anchor : Option String) (n : Node) : Node × Reading :=
  match anchor with
  | some a => (n, { r with anchors := (a, n) :: r.anchors })
  | none => (n, r)

end Reading

/-- The node that stands where nothing is written. -/
def emptyNode : Node := .scalar Tag.null ""

/-- The tag of a scalar: its own, or one by its spelling if it is plain or asks for it. -/
def scalarTag (tag : Option String) (plain : Bool) (text : String) : String :=
  match tag with
  | some "!" => plainTag text
  | some t => t
  | none => if plain then plainTag text else Tag.str

/-- The tag of a collection. -/
def collectionTag (tag : Option String) (default : String) : String :=
  match tag with
  | some "!" => default
  | some t => t
  | none => default

/-- Which collections may begin at a place: none that needs a line of its own, those with a
start token, or also entries that stand at the column of the key before them. -/
inductive Place
  | flow | block | afterKey
deriving DecidableEq

mutual
/-- A node with its anchor and tag. -/
def readNode (place : Place) : Nat → Reading → Step
  | 0, _ => .error .notYaml
  | fuel + 1, r =>
    match r.tokens with
    | .alias name :: rest =>
      match r.anchors.lookup name with
      | some n => .ok (n, { r with tokens := rest })
      | none => .error (if r.names.contains name then .cyclic else .notYaml)
    | _ => do
      let (anchor, tag, r) ← r.properties
      let r ← r.declare anchor
      let seqTag := collectionTag tag Tag.seq
      let mapTag := collectionTag tag Tag.map
      match r.tokens with
      | .blockEntry :: _ =>
        if place = .afterKey then
          let (items, r) ← readEntries fuel r
          return r.bind anchor (.seq seqTag items)
        else absent anchor tag r
      | .scalar text plain :: rest =>
        return { r with tokens := rest }.bind anchor (.scalar (scalarTag tag plain text) text)
      | .flowSequenceStart :: rest =>
        let (items, r) ← readFlowItems true fuel { r with tokens := rest }
        return r.bind anchor (.seq seqTag items)
      | .flowMappingStart :: rest =>
        let (pairs, r) ← readFlowPairs true fuel { r with tokens := rest }
        return r.bind anchor (.map mapTag pairs)
      | .blockSequenceStart :: rest =>
        if place = .flow then absent anchor tag r
        else
          let (items, r) ← readEntries fuel { r with tokens := rest }
          return (← r.take .blockEnd).bind anchor (.seq seqTag items)
      | .blockMappingStart :: rest =>
        if place = .flow then absent anchor tag r
        else
          let (pairs, r) ← readPairs fuel { r with tokens := rest }
          return (← r.take .blockEnd).bind anchor (.map mapTag pairs)
      | _ => absent anchor tag r
/-- A node of which only an anchor or a tag is written. -/
def absent (anchor tag : Option String) (r : Reading) : Step := do
  require (anchor.isSome || tag.isSome)
  return r.bind anchor (.scalar (scalarTag tag true "") "")
/-- A node, or the empty one before a token that ends its place. -/
def readOrEmpty (place : Place) (ends : List Token) : Nat → Reading → Step
  | 0, _ => .error .notYaml
  | fuel + 1, r => if r.at? ends then .ok (emptyNode, r) else readNode place fuel r
/-- The entries of a block sequence. -/
def readEntries : Nat → Reading → Except Refusal (List Node × Reading)
  | 0, _ => .error .notYaml
  | fuel + 1, r =>
    match r.tokens with
    | .blockEntry :: rest => do
      let r := { r with tokens := rest }
      let (n, r) ← readOrEmpty .block [.blockEntry, .key, .value, .blockEnd] fuel r
      let (ns, r) ← readEntries fuel r
      return (n :: ns, r)
    | _ => .ok ([], r)
/-- The pairs of a block mapping; each begins with a key. -/
def readPairs : Nat → Reading → Except Refusal (List (Node × Node) × Reading)
  | 0, _ => .error .notYaml
  | fuel + 1, r =>
    match r.tokens with
    | .key :: rest => do
      let ends := [.key, .value, .blockEnd]
      let (k, r) ← readOrEmpty .afterKey ends fuel { r with tokens := rest }
      let (v, r) ← if r.at? [.value] then readOrEmpty .afterKey ends fuel r.next
        else pure (emptyNode, r)
      let (ps, r) ← readPairs fuel r
      return ((k, v) :: ps, r)
    | _ => .ok ([], r)
/-- The items between brackets; a key among them begins a mapping of one pair. -/
def readFlowItems (first : Bool) : Nat → Reading → Except Refusal (List Node × Reading)
  | 0, _ => .error .notYaml
  | fuel + 1, r => do
    if r.at? [.flowSequenceEnd] then return ([], r.next)
    let r ← if first then pure r else r.take .flowEntry
    if r.at? [.key] then
      let (k, r) ← readOrEmpty .flow [.value, .flowEntry, .flowSequenceEnd] fuel r.next
      let (v, r) ← if r.at? [.value] then readOrEmpty .flow [.flowEntry, .flowSequenceEnd] fuel r.next
        else pure (emptyNode, r)
      let (ns, r) ← readFlowItems false fuel r
      return (.map Tag.map [(k, v)] :: ns, r)
    else if r.at? [.flowSequenceEnd] then return ([], r.next)
    else
      let (n, r) ← readNode .flow fuel r
      let (ns, r) ← readFlowItems false fuel r
      return (n :: ns, r)
/-- The pairs between braces. -/
def readFlowPairs (first : Bool) : Nat → Reading → Except Refusal (List (Node × Node) × Reading)
  | 0, _ => .error .notYaml
  | fuel + 1, r => do
    if r.at? [.flowMappingEnd] then return ([], r.next)
    let r ← if first then pure r else r.take .flowEntry
    if r.at? [.key] then
      let (k, r) ← readOrEmpty .flow [.value, .flowEntry, .flowMappingEnd] fuel r.next
      let (v, r) ← if r.at? [.value] then readOrEmpty .flow [.flowEntry, .flowMappingEnd] fuel r.next
        else pure (emptyNode, r)
      let (ps, r) ← readFlowPairs false fuel r
      return ((k, v) :: ps, r)
    else if r.at? [.flowMappingEnd] then return ([], r.next)
    else
      let (k, r) ← readNode .flow fuel r
      let (ps, r) ← readFlowPairs false fuel r
      return ((k, emptyNode) :: ps, r)
end

/-- The handles that need no directive. -/
def standardHandles : List (String × String) := [("!", "!"), ("!!", "tag:yaml.org,2002:")]

/-- The directives at the head of a document: one version of the first generation, and each handle
once. -/
def readDirectives (version : Bool) (handles : List (String × String)) :
    List Token → Except Refusal (List (String × String) × List Token)
  | .directive (.version major _) :: rest => do
    require (!version && major == 1)
    readDirectives true handles rest
  | .directive (.tag handle image) :: rest => do
    require (handles.lookup handle).isNone
    readDirectives version ((handle, image) :: handles) rest
  | .directive .reserved :: rest => readDirectives version handles rest
  | rest => .ok (handles ++ standardHandles, rest)

def dropDocumentEnds (ts : List Token) : List Token := ts.dropWhile (· == .documentEnd)

/-- The only document of a text, if there is one. -/
def readDocument (ts : List Token) : Except Refusal (Option Node) := do
  let fuel := 4 * ts.length + 8
  let finish (r : Reading) : Except Refusal Unit := require (dropDocumentEnds r.tokens == [.streamEnd])
  match ts with
  | .directive _ :: _ | .documentStart :: _ =>
    let (handles, rest) ← readDirectives false [] ts
    match rest with
    | .documentStart :: rest =>
      let r : Reading := ⟨rest, [], [], handles⟩
      match rest with
      | .directive _ :: _ | .documentStart :: _ | .documentEnd :: _ | .streamEnd :: _ =>
        finish r
        return some emptyNode
      | _ =>
        let (n, r) ← readNode .block fuel r
        finish r
        return some n
    | _ => .error .notYaml
  | [.streamEnd] => return none
  | _ =>
    let (n, r) ← readNode .block fuel ⟨ts, [], [], standardHandles⟩
    finish r
    return some n

end ToolServer.Yaml
