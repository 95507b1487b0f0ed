import ToolServer.Text.Class

/-!
# String literals

A string literal as it is written, and the text or bytes that it denotes. A text is a sequence of code
points, which may be surrogates. An escape that is not known stands for itself.
-/

namespace ToolServer.Program

open Text (hexDigit? isAsciiLetter isAsciiDigit)

structure Literal where
  /-- Backslashes stand for themselves. -/
  raw : Bool
  /-- The literal denotes bytes. -/
  bytes : Bool
  /-- The literal holds expressions in braces. -/
  formatted : Bool
  /-- What stands between the quotes. -/
  body : List Char
deriving DecidableEq, Repr

/-- One piece of what a literal denotes. -/
inductive Piece
  /-- A code point, or a byte. -/
  | code (n : Nat)
  /-- The character of a Unicode name. -/
  | named (name : List Char)
deriving DecidableEq, Repr

/-- The character of a single-letter escape. -/
def escapeImage? (c : Char) : Option Nat :=
  match c with
  | '\\' => some 92
  | '\'' => some 39
  | '"' => some 34
  | 'a' => some 7
  | 'b' => some 8
  | 'f' => some 12
  | 'n' => some 10
  | 'r' => some 13
  | 't' => some 9
  | 'v' => some 11
  | _ => none

def isOctal (c : Char) : Bool := '0' ≤ c && c ≤ '7'

def octalValue (ds : List Char) : Nat := ds.foldl (fun n d => n * 8 + (d.toNat - 48)) 0

def hexValue? (ds : List Char) : Option Nat := do
  return (← ds.mapM hexDigit?).foldl (fun n d => 16 * n + d) 0

/-- How many hexadecimal digits follow the letter of an escape; bytes have only the short form. -/
def hexWidth? (bytes : Bool) (c : Char) : Option Nat :=
  match c with
  | 'x' => some 2
  | 'u' => if bytes then none else some 4
  | 'U' => if bytes then none else some 8
  | _ => none

def isNameChar (c : Char) : Bool := isAsciiLetter c || isAsciiDigit c || c == ' ' || c == '-'

/-- What follows the letter of an escape, as the pieces it stands for and what is left. -/
def escape? (bytes : Bool) (c : Char) (rest : List Char) : Option (List Piece × List Char) :=
  if c = '\n' then some ([], rest)
  else if isOctal c then
    let ds := c :: (rest.take 2).takeWhile isOctal
    let n := octalValue ds
    some ([.code (if bytes then n % 256 else n)], rest.drop (ds.length - 1))
  else
    match hexWidth? bytes c with
    | some width =>
      if rest.length < width then none
      else do
        let n ← hexValue? (rest.take width)
        if n < 0x110000 then return ([.code n], rest.drop width) else none
    | none =>
      if c = 'N' && !bytes then
        match rest with
        | '{' :: rest =>
          let name := rest.takeWhile isNameChar
          match rest.drop name.length with
          | '}' :: rest => if name.isEmpty then none else some ([.named name], rest)
          | _ => none
        | _ => none
      else some (match escapeImage? c with
        | some n => [.code n]
        | none => [.code 92, .code c.toNat], rest)

/-- The pieces of a text with escapes; a backslash at the end stands for itself. An escape takes at
least its letter, so the length of the text bounds the steps. -/
def pieces? (bytes : Bool) : Nat → List Char → Option (List Piece)
  | _, [] => some []
  | 0, _ => none
  | fuel + 1, '\\' :: c :: rest => do
    let (ps, rest) ← escape? bytes c rest
    return ps ++ (← pieces? bytes fuel rest)
  | _, ['\\'] => some [.code 92]
  | fuel + 1, c :: rest => do return .code c.toNat :: (← pieces? bytes fuel rest)

/-- What a part of a literal's body denotes. Bytes are written in ASCII alone. -/
def Literal.denote? (l : Literal) (part : List Char) : Option (List Piece) :=
  if l.bytes && part.any (fun c => c.toNat ≥ 0x80) then none
  else if l.raw then some (part.map fun c => .code c.toNat)
  else pieces? l.bytes (part.length + 1) part

end ToolServer.Program
