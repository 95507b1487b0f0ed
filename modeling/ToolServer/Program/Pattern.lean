import Std.Data.HashMap
import ToolServer.Program.Token

/-!
# Patterns over tokens

Grammars by ordered choice: a pattern takes tokens from a place on or fails, the first alternative that
fits is taken, and a repetition takes all that it can. Answers of named patterns are remembered, so that
each is sought once at each place.
-/

namespace ToolServer.Program

/-- A class of tokens. -/
inductive Terminal
  | sign (text : String)
  | word (text : String)
  | name
  | number
  | real
  | imaginary
  | string
  | newline
  | indent
  | dedent
deriving DecidableEq, Repr

def Terminal.accepts : Terminal → Token → Bool
  | sign s, .sign t => s == t
  | word s, .name t => s == t
  | name, .name t => !keywords.contains t
  | number, .number _ => true
  | real, .number i => !i
  | imaginary, .number i => i
  | string, .string _ => true
  | newline, .newline => true
  | indent, .indent => true
  | dedent, .dedent => true
  | _, _ => false

/-- A pattern over tokens whose named parts are of `ν`. -/
inductive Pattern (ν : Type) where
  | token (t : Terminal)
  | named (n : ν)
  | nothing
  | seq (p q : Pattern ν)
  | choice (p q : Pattern ν)
  /-- As often as it fits. -/
  | many (p : Pattern ν)
  /-- Fits without taking a token. -/
  | ahead (p : Pattern ν)
  /-- Does not fit. -/
  | notAhead (p : Pattern ν)
  /-- After the last token. -/
  | finish

namespace Pattern

variable {ν : Type}

def opt (p : Pattern ν) : Pattern ν := .choice p .nothing

def some_ (p : Pattern ν) : Pattern ν := .seq p (.many p)

def all : List (Pattern ν) → Pattern ν
  | [] => .nothing
  | [p] => p
  | p :: ps => .seq p (all ps)

def oneOf : List (Pattern ν) → Pattern ν
  | [] => .notAhead .nothing
  | [p] => p
  | p :: ps => .choice p (oneOf ps)

/-- At least one, with a separator between each two. -/
def separated (separator p : Pattern ν) : Pattern ν := .seq p (.many (.seq separator p))

end Pattern

variable {ν : Type} [BEq ν] [Hashable ν]

/-- Where each named pattern that was sought at a place ends, if it fits there. -/
abbrev Memory (ν : Type) [BEq ν] [Hashable ν] := Std.HashMap (ν × Nat) (Option Nat)

/-- The place after a pattern, if it fits. -/
def run (grammar : ν → Pattern ν) (tokens : Array Token) : Nat → Pattern ν → Nat → StateM (Memory ν) (Option Nat)
  | 0, _, _ => return none
  | fuel + 1, pattern, i => do
    match pattern with
    | .token t =>
      match tokens[i]? with
      | some token => return if t.accepts token then some (i + 1) else none
      | none => return none
    | .finish => return if i = tokens.size then some i else none
    | .nothing => return some i
    | .named n =>
      match (← get)[(n, i)]? with
      | some answer => return answer
      | none =>
        let answer ← run grammar tokens fuel (grammar n) i
        modify (·.insert (n, i) answer)
        return answer
    | .seq p q =>
      match ← run grammar tokens fuel p i with
      | some j => run grammar tokens fuel q j
      | none => return none
    | .choice p q =>
      match ← run grammar tokens fuel p i with
      | some j => return some j
      | none => run grammar tokens fuel q i
    | .many p =>
      match ← run grammar tokens fuel p i with
      | some j => run grammar tokens fuel (.many p) j
      | none => return some i
    | .ahead p => return (← run grammar tokens fuel p i).map fun _ => i
    | .notAhead p =>
      match ← run grammar tokens fuel p i with
      | some _ => return none
      | none => return some i

/-- Whether a pattern fits at the start of tokens. Between two tokens that are taken a pattern goes
through a bounded number of parts, which the factor covers. -/
def fits (grammar : ν → Pattern ν) (p : Pattern ν) (tokens : List Token) : Bool :=
  ((run grammar tokens.toArray (2000 * (tokens.length + 1)) p 0).run {}).1.isSome

end ToolServer.Program
