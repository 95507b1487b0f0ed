import ToolServer.Decimal.Double
import ToolServer.Document.Calendar
import ToolServer.Ordered

/-!
# Document values

A document is a tree of scalars, lists and ordered maps whose keys are scalars. Besides these, tagged
nodes may bring sets and lists of pairs. Scalars of different kinds are equal when they are numbers of
one value, truth values counting as zero and one.
-/

namespace ToolServer.Document

open Decimal (Double)

inductive Scalar
  | null
  | bool (b : Bool)
  | int (n : Int)
  | real (x : Double)
  | text (s : String)
  | date (d : Date)
  | moment (t : Moment)
  | bytes (bs : List UInt8)
deriving DecidableEq, Repr

inductive Value
  | scalar (s : Scalar)
  | list (items : List Value)
  | map (entries : List (Scalar × Value))
  | set (members : List Scalar)
  | pair (first second : Value)
deriving Repr, Inhabited

/-- The entries of a map, in order. -/
abbrev Entries := List (Scalar × Value)

namespace Scalar

/-- The integer that a truth value or an integer counts as. -/
def asInt? : Scalar → Option Int
  | bool b => some (if b then 1 else 0)
  | int n => some n
  | _ => none

def same (a b : Scalar) : Bool :=
  match a, b with
  | null, null => true
  | text s, text t => s == t
  | real x, real y => x.equals y
  | date d, date e => d == e
  | moment s, moment t => s.same t
  | bytes s, bytes t => s == t
  | real x, _ => match b.asInt? with
    | some n => x.equalsInt n
    | none => false
  | _, real y => match a.asInt? with
    | some n => y.equalsInt n
    | none => false
  | _, _ => match a.asInt?, b.asInt? with
    | some m, some n => m == n
    | _, _ => false

instance : BEq Scalar := ⟨same⟩

/-- Empty texts, zeros, null and false count as absent. -/
def isTruthy : Scalar → Bool
  | null => false
  | bool b => b
  | int n => n != 0
  | real x => !x.isZero
  | text s => s != ""
  | bytes bs => !bs.isEmpty
  | date _ | moment _ => true

end Scalar

namespace Value

@[match_pattern] abbrev null : Value := scalar .null
@[match_pattern] abbrev bool (b : Bool) : Value := scalar (.bool b)
@[match_pattern] abbrev int (n : Int) : Value := scalar (.int n)
@[match_pattern] abbrev real (x : Double) : Value := scalar (.real x)
@[match_pattern] abbrev text (s : String) : Value := scalar (.text s)

def isNull : Value → Bool
  | null => true
  | _ => false

def isTruthy : Value → Bool
  | scalar s => s.isTruthy
  | list items => !items.isEmpty
  | map entries => !entries.isEmpty
  | set members => !members.isEmpty
  | pair _ _ => true

/-- Sets are equal when each holds the members of the other. -/
def sameMembers (xs ys : List Scalar) : Bool :=
  xs.length == ys.length && xs.all (ys.contains ·)

mutual
/-- Equality of values: maps and sets are compared without regard to order. -/
def same : Value → Value → Bool
  | scalar a, scalar b => a == b
  | list xs, list ys => sameItems xs ys
  | map xs, map ys => xs.length == ys.length && sameEntries xs ys
  | set xs, set ys => sameMembers xs ys
  | pair a b, pair c d => same a c && same b d
  | _, _ => false
def sameItems : List Value → List Value → Bool
  | [], [] => true
  | x :: xs, y :: ys => same x y && sameItems xs ys
  | _, _ => false
/-- Every entry of the first map is in the second. -/
def sameEntries : List (Scalar × Value) → Entries → Bool
  | [], _ => true
  | (k, v) :: xs, ys =>
    (match Ordered.get? k ys with
      | some w => same v w
      | none => false) && sameEntries xs ys
end

instance : BEq Value := ⟨same⟩

end Value

namespace Entries

/-- The value under a text key. -/
def get? (entries : Entries) (name : String) : Option Value :=
  Ordered.get? (.text name) entries

/-- The value under a text key, or null. -/
def get (entries : Entries) (name : String) : Value := (entries.get? name).getD .null

def has (entries : Entries) (name : String) : Bool := Ordered.contains (Scalar.text name) entries

end Entries

end ToolServer.Document
