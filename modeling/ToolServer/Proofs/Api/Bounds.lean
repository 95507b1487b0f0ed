import ToolServer.Api.Parsing

/-!
# Texts within bounds

The work on a text comes to an end for reasons that are not in its parts if an escape stands for half a character, a
node holds itself, collections are nested too deep, or an integer has too many digits to be shown. `Bounded` leaves
such texts out. What references lead to can be deeper than the document, so it is bounded too.
-/

namespace ToolServer

def levelLimit : Nat := 100

namespace Json

/-- How many brackets are open behind a character. -/
def openAfter (depth : Nat) (c : Char) : Nat :=
  if c = '[' || c = '{' then depth + 1 else if c = ']' || c = '}' then depth - 1 else depth

/-- The most brackets that are open at once, those inside strings left out. -/
def nesting : (inString : Bool) → (depth : Nat) → List Char → Nat
  | _, depth, [] => depth
  | true, depth, '\\' :: _ :: rest => nesting true depth rest
  | true, depth, c :: rest => nesting (c != '"') depth rest
  | false, depth, c :: rest => max depth (nesting (c == '"') (openAfter depth c) rest)

structure Bounded (text : String) : Prop where
  characters : read text ≠ .error .halfCharacter
  levels : nesting false 0 text.toList ≤ levelLimit

end Json

namespace Yaml

/-- How many collections are open behind a token. -/
def openAfter (depth : Nat) : Token → Nat
  | .blockSequenceStart | .blockMappingStart | .flowSequenceStart | .flowMappingStart => depth + 1
  | .blockEnd | .flowSequenceEnd | .flowMappingEnd => depth - 1
  | _ => depth

/-- The most collections that are open at once. -/
def nesting : (depth : Nat) → List Token → Nat
  | depth, [] => depth
  | depth, t :: ts => max depth (nesting (openAfter depth t) ts)

structure Bounded (text : String) : Prop where
  characters : read text ≠ .error .halfCharacter
  tree : read text ≠ .error .cyclic
  -- an escape of no character at all is met when the tokens before it may already be out of place
  escapes : ∀ fault, (tokens text.toList).2 = some fault → fault = .notYaml
  levels : nesting 0 (tokens text.toList).1 ≤ levelLimit
  -- here each alias counts as a copy of its node, as merging takes it
  height : ∀ n ∈ (readDocument (tokens text.toList).1).toOption.join, n.height ≤ levelLimit

end Yaml

namespace Document

def Scalar.isBounded : Scalar → Bool
  | int n => Decimal.isWritable n
  | _ => true

/-- A value of at most so many levels, without integers that have too many digits. -/
def Value.isBounded : (levels : Nat) → Value → Bool
  | 0, _ => false
  | _ + 1, scalar s => s.isBounded
  | levels + 1, list items => items.all (isBounded levels)
  | levels + 1, map entries => entries.all fun e => e.1.isBounded && e.2.isBounded levels
  | _ + 1, set members => members.all Scalar.isBounded
  | levels + 1, pair a b => a.isBounded levels && b.isBounded levels

end Document

namespace Api

open Document

structure Bounded (text : String) : Prop where
  json : detectFormat text = .json → Json.Bounded text
  yaml : detectFormat text = .yaml → Yaml.Bounded text
  document : ∀ v, load text = .ok v → v.isBounded levelLimit = true
  resolved : ∀ e ∈ (parseWith text).2.cache, e.2.isBounded levelLimit = true

end Api

end ToolServer
