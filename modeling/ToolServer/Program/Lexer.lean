import ToolServer.Program.Number
import ToolServer.Program.Token
import ToolServer.Text.NameTable
import ToolServer.Text.Piece

/-!
# From text to tokens

The tokens of a program text. The indentation of a line is measured twice, with tabs to the next
multiple of eight columns and with tabs of one column, and both must tell the same; brackets take in
line ends.
-/

namespace ToolServer.Program

open Text (inRanges isAsciiDigit isAsciiLetter)

/-- Indentation, with wide tabs and with narrow ones. -/
structure Margin where
  wide : Nat
  narrow : Nat
deriving DecidableEq, Repr

/-- What has been read: the margins of the blocks and the open brackets, innermost first, and the
tokens, last first. -/
structure Scan where
  margins : List Margin := []
  brackets : List Char := []
  tokens : List Token := []

namespace Scan

def emit (s : Scan) (t : Token) : Scan := { s with tokens := t :: s.tokens }

def margin (s : Scan) : Margin := s.margins.head?.getD ⟨0, 0⟩

def maxBlocks : Nat := 100

def maxBrackets : Nat := 200

/-- Close the blocks whose margin is right of a new one. -/
def dedentTo (m : Margin) (tokens : List Token) : List Margin → List Margin × List Token
  | [] => ([], tokens)
  | top :: rest =>
    if m.wide < top.wide then dedentTo m (.dedent :: tokens) rest else (top :: rest, tokens)

/-- Go to the margin of a new line. -/
def indentTo? (s : Scan) (m : Margin) : Option Scan :=
  let top := s.margin
  if m.wide = top.wide then (if m.narrow = top.narrow then some s else none)
  else if top.wide < m.wide then
    if m.narrow ≤ top.narrow || s.margins.length + 1 ≥ maxBlocks then none
    else some { s with margins := m :: s.margins, tokens := .indent :: s.tokens }
  else
    let (margins, tokens) := dedentTo m s.tokens s.margins
    let s := { s with margins, tokens }
    if s.margin = m then some s else none

/-- Keep track of brackets. -/
def bracket? (s : Scan) (sign : String) : Option Scan :=
  match sign.toList with
  | ['('] | ['['] | ['{'] =>
    if s.brackets.length ≥ maxBrackets then none
    else some { s with brackets := sign.toList ++ s.brackets }
  | [')'] => close '('
  | [']'] => close '['
  | ['}'] => close '{'
  | _ => some s
where
  close (opening : Char) : Option Scan :=
    match s.brackets with
    | top :: rest => if top = opening then some { s with brackets := rest } else none
    | [] => none

end Scan

/-- The margin of a line and what follows it. A backslash joins the next line, and the margin is then
the column of the first backslash that is not at the start of its line. -/
def measure? (m : Margin) (joined : Nat) : List Char → Option (Margin × List Char)
  | ' ' :: rest => measure? ⟨m.wide + 1, m.narrow + 1⟩ joined rest
  | '\t' :: rest => measure? ⟨(m.wide / 8 + 1) * 8, m.narrow + 1⟩ joined rest
  | '\x0c' :: rest => measure? ⟨0, 0⟩ joined rest
  | '\\' :: rest =>
    match rest with
    | '\n' :: c :: more => measure? m (if joined = 0 then m.wide else joined) (c :: more)
    | _ => none
  | rest => some (if joined = 0 then m else ⟨joined, joined⟩, rest)

/-- The kind of a literal, by the letters before its quotes. -/
def literalKind? (letters : List Char) : Option Literal :=
  match letters.map fun c => if c.toNat < 97 then Char.ofNat (c.toNat + 32) else c with
  | [] | ['u'] => some ⟨false, false, false, []⟩
  | ['r'] => some ⟨true, false, false, []⟩
  | ['b'] => some ⟨false, true, false, []⟩
  | ['f'] => some ⟨false, false, true, []⟩
  | ['b', 'r'] | ['r', 'b'] => some ⟨true, true, false, []⟩
  | ['f', 'r'] | ['r', 'f'] => some ⟨true, false, true, []⟩
  | _ => none

/-- A body in single quotes, which ends on its line. -/
def lineBody? (quote : Char) : List Char → Option (List Char × List Char)
  | '\\' :: c :: rest => (lineBody? quote rest).map fun (s, rest) => ('\\' :: c :: s, rest)
  | c :: rest =>
    if c = quote then some ([], rest)
    else if c = '\n' then none
    else (lineBody? quote rest).map fun (s, rest) => (c :: s, rest)
  | [] => none

/-- A body in triple quotes. -/
def longBody? (quote : Char) : List Char → Option (List Char × List Char)
  | '\\' :: c :: rest => (longBody? quote rest).map fun (s, rest) => ('\\' :: c :: s, rest)
  | c :: rest =>
    if [quote, quote, quote].isPrefixOf (c :: rest) then some ([], rest.drop 2)
    else (longBody? quote rest).map fun (s, rest) => (c :: s, rest)
  | [] => none

/-- A body from its opening quote on. -/
def body? (text : List Char) : Option (List Char × List Char) :=
  match text with
  | q :: rest => if [q, q].isPrefixOf rest then longBody? q (rest.drop 2) else lineBody? q rest
  | [] => none

def isQuote (c : Char) : Bool := c == '"' || c == '\''

/-- The literal at the start of a text, if one opens there: letters of a kind and a quote. -/
def literalAt? (text : List Char) : Option (Option (Literal × List Char)) := do
  let letters := (text.take 2).takeWhile isAsciiLetter
  let rest := text.drop letters.length
  let kind ← literalKind? letters
  if (rest.head?.map isQuote).getD false then
    return (body? rest).map fun (body, rest) => ({ kind with body }, rest)
  else none

def isNameStart (c : Char) : Bool :=
  if c.toNat < 0x80 then isAsciiLetter c || c == '_' else inRanges Text.nameStartRanges c

def isNamePart (c : Char) : Bool :=
  isNameStart c || (if c.toNat < 0x80 then isAsciiDigit c else inRanges Text.nameMarkRanges c)

def isName : List Char → Bool
  | [] => false
  | c :: rest => isNameStart c && rest.all isNamePart

def isNumberStart : List Char → Bool
  | '.' :: d :: _ => isAsciiDigit d
  | d :: _ => isAsciiDigit d
  | [] => false

/-- The literal, number, name or sign at the start of a text. -/
def token? (s : Scan) (text : List Char) : Option (Scan × List Char) :=
  match literalAt? text with
  | some read => read.map fun (l, rest) => (s.emit (.string l), rest)
  | none =>
    if isNumberStart text then (numberEnd? text).map fun (imaginary, rest) => (s.emit (.number imaginary), rest)
    else
      let word := text.takeWhile isWordChar
      if !word.isEmpty then
        if isName word then some (s.emit (.name (String.ofList word)), text.drop word.length) else none
      else do
        let sign ← signs.find? (·.toList.isPrefixOf text)
        return ((← s.bracket? sign).emit (.sign sign), text.drop sign.length)

def isGap (c : Char) : Bool := c == ' ' || c == '\t' || c == '\x0c'

mutual
/-- Read on at the start of a line. A line with nothing but space and a comment has no margin. -/
def readLine? (s : Scan) : Nat → List Char → Option Scan
  | 0, _ => none
  | fuel + 1, text => do
    let (m, rest) ← measure? ⟨0, 0⟩ 0 text
    match rest with
    | '#' :: rest => readRest? s true fuel (rest.dropWhile (· != '\n'))
    | '\n' :: rest => readLine? s fuel rest
    | [] => if s.brackets.isEmpty then s.indentTo? m else none
    | rest => readRest? (← if s.brackets.isEmpty then s.indentTo? m else some s) false fuel rest
/-- Read on within a line. -/
def readRest? (s : Scan) (blank : Bool) : Nat → List Char → Option Scan
  | 0, _ => none
  | fuel + 1, text =>
    match text.dropWhile isGap with
    | [] => none
    | '#' :: rest => readRest? s blank fuel (rest.dropWhile (· != '\n'))
    | '\n' :: rest =>
      readLine? (if blank || !s.brackets.isEmpty then s else s.emit .newline) fuel rest
    | '\\' :: rest =>
      match rest with
      | '\n' :: c :: more => readRest? s blank fuel (c :: more)
      | _ => none
    | text => do
      let (s, rest) ← token? s text
      readRest? s blank fuel rest
end

/-- A text with line feeds alone, one of them at the end. -/
def normalLines (text : List Char) : List Char :=
  let text := Text.lineFeeds text
  if text.getLast? = some '\n' then text else text ++ ['\n']

/-- The tokens of a text. -/
def tokens? (text : List Char) : Option (List Token) :=
  (readLine? {} (2 * text.length + 4) (normalLines text)).map (·.tokens.reverse)

end ToolServer.Program
