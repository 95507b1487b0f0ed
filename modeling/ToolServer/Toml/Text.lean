import ToolServer.Text.Class

/-!
# Quoted texts and keys

The four forms of a quoted TOML text. Basic texts, in double quotes, have escapes; literal texts, in
single quotes, have none. Three quotes open a text of several lines. Each reader takes the text after its
opening and gives what it denotes and what is left.
-/

namespace ToolServer.Toml

open Text (hexDigit? isAsciiDigit isAsciiLetter)

def isSpace (c : Char) : Bool := c == ' ' || c == '\t'

def isSpaceOrLine (c : Char) : Bool := isSpace c || c == '\n'

def skipSpace (cs : List Char) : List Char := cs.dropWhile isSpace

/-- A control character other than a tab stands in no text or comment. -/
def isControl (c : Char) : Bool := (c.toNat < 0x20 && c != '\t') || c == '\x7f'

/-- Texts of several lines hold line ends as well. -/
def isAllowed (lines : Bool) (c : Char) : Bool := !isControl c || (lines && c == '\n')

/-- The character of a single-letter escape. -/
def escapeImage? (c : Char) : Option Char :=
  match c with
  | 'b' => some '\x08'
  | 't' => some '\t'
  | 'n' => some '\n'
  | 'f' => some '\x0c'
  | 'r' => some '\r'
  | '"' => some '"'
  | '\\' => some '\\'
  | _ => none

def isScalarValue (n : Nat) : Bool := n < 0xd800 || (0xe000 ≤ n && n < 0x110000)

/-- The character that hexadecimal digits number: it may be any but a surrogate. -/
def hexImage? (ds : List Char) : Option Char := do
  let n := (← ds.mapM hexDigit?).foldl (fun n d => 16 * n + d) 0
  if isScalarValue n then some (Char.ofNat n) else none

/-- A basic text up to its closing quote. -/
def basic? : List Char → Option (List Char × List Char)
  | '"' :: rest => some ([], rest)
  | '\\' :: 'u' :: a :: b :: c :: d :: rest => do
    let image ← hexImage? [a, b, c, d]
    let (s, rest) ← basic? rest
    return (image :: s, rest)
  | '\\' :: 'U' :: a :: b :: c :: d :: e :: f :: g :: h :: rest => do
    let image ← hexImage? [a, b, c, d, e, f, g, h]
    let (s, rest) ← basic? rest
    return (image :: s, rest)
  | '\\' :: x :: rest => do
    let image ← escapeImage? x
    let (s, rest) ← basic? rest
    return (image :: s, rest)
  | c :: rest =>
    if c = '\\' || isControl c then none
    else (basic? rest).map fun (s, rest) => (c :: s, rest)
  | [] => none

/-- A literal text up to its closing quote. -/
def literal? : List Char → Option (List Char × List Char)
  | '\'' :: rest => some ([], rest)
  | c :: rest => if isControl c then none else (literal? rest).map fun (s, rest) => (c :: s, rest)
  | [] => none

/-- One or two quotes after the three that close a text of several lines belong to it. -/
def closing (quote : Char) : List Char → List Char × List Char
  | c :: d :: rest =>
    if c = quote then (if d = quote then ([c, d], rest) else ([c], d :: rest)) else ([], c :: d :: rest)
  | [c] => if c = quote then ([c], []) else ([], [c])
  | [] => ([], [])

/-- What is left after an escaped line end, which takes the blanks and lines that follow; the text
starts after the backslash. -/
def joined? (cs : List Char) : Option (List Char) :=
  match skipSpace cs with
  | '\n' :: rest => some (rest.dropWhile isSpaceOrLine)
  | [] => if cs.isEmpty then none else some []
  | _ => none

/-- A basic text of several lines, up to its closing quotes. -/
def basicLines? : Nat → List Char → Option (List Char × List Char)
  | 0, _ => none
  | fuel + 1, text =>
    match text with
    | '"' :: '"' :: '"' :: rest => some (closing '"' rest)
    | '\\' :: 'u' :: a :: b :: c :: d :: rest => do
      let image ← hexImage? [a, b, c, d]
      let (s, rest) ← basicLines? fuel rest
      return (image :: s, rest)
    | '\\' :: 'U' :: a :: b :: c :: d :: e :: f :: g :: h :: rest => do
      let image ← hexImage? [a, b, c, d, e, f, g, h]
      let (s, rest) ← basicLines? fuel rest
      return (image :: s, rest)
    | '\\' :: x :: rest =>
      if isSpaceOrLine x then do basicLines? fuel (← joined? (x :: rest))
      else do
        let image ← escapeImage? x
        let (s, rest) ← basicLines? fuel rest
        return (image :: s, rest)
    | c :: rest =>
      if c = '\\' || !isAllowed true c then none
      else (basicLines? fuel rest).map fun (s, rest) => (c :: s, rest)
    | [] => none

/-- A literal text of several lines, up to its closing quotes. -/
def literalLines? : List Char → Option (List Char × List Char)
  | '\'' :: '\'' :: '\'' :: rest => some (closing '\'' rest)
  | c :: rest =>
    if isAllowed true c then (literalLines? rest).map fun (s, rest) => (c :: s, rest) else none
  | [] => none

/-- A line end right after the opening quotes is not part of the text. -/
def afterOpening : List Char → List Char
  | '\n' :: rest => rest
  | text => text

/-- The quoted text at the start of a text, if one opens there. -/
def quoted? (text : List Char) : Option (Option (List Char × List Char)) :=
  match text with
  | '"' :: '"' :: '"' :: rest => some (basicLines? (rest.length + 1) (afterOpening rest))
  | '\'' :: '\'' :: '\'' :: rest => some (literalLines? (afterOpening rest))
  | '"' :: rest => some (basic? rest)
  | '\'' :: rest => some (literal? rest)
  | _ => none

/-! Keys: parts between points, each bare or in one pair of quotes. -/

def isBare (c : Char) : Bool := isAsciiLetter c || isAsciiDigit c || c == '-' || c == '_'

def isKeyStart (c : Char) : Bool := isBare c || c == '"' || c == '\''

def keyPart? : List Char → Option (String × List Char)
  | '"' :: rest => (basic? rest).map fun (s, rest) => (String.ofList s, rest)
  | '\'' :: rest => (literal? rest).map fun (s, rest) => (String.ofList s, rest)
  | text =>
    let part := text.takeWhile isBare
    if part.isEmpty then none else some (String.ofList part, text.dropWhile isBare)

/-- A key and the space after it. -/
def key? : Nat → List Char → Option (List String × List Char)
  | 0, _ => none
  | fuel + 1, text => do
    let (part, rest) ← keyPart? text
    match skipSpace rest with
    | '.' :: rest => do
      let (parts, rest) ← key? fuel (skipSpace rest)
      return (part :: parts, rest)
    | rest => return ([part], rest)

end ToolServer.Toml
