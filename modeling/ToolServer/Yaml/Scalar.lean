import ToolServer.Text.Class
import ToolServer.Yaml.Cursor
import ToolServer.Yaml.Name

/-!
# Scalars of YAML

The three ways to write a text: between quotes, plain, and as a block of lines. In all of them a line
break between two lines of text is read as a space, and further breaks are kept; a block may keep all.
-/

namespace ToolServer.Yaml

open Text (hexDigit?)

/-- The blank lines after a line break, up to text that does not begin a new document. -/
def quotedBreaks : Nat → Cursor → Except Refusal (List Char × Cursor)
  | 0, c => .ok ([], c)
  | fuel + 1, c => do
    require (!c.atSeparator)
    let c := c.skipWhile isSpaceOrTab
    match c.lineBreak with
    | ([], _) => return ([], c)
    | (b, c) =>
      let (bs, c) ← quotedBreaks fuel c
      return (b ++ bs, c)

/-- What a line break and the blank lines after it are read as. -/
def foldBreaks (first rest : List Char) : List Char :=
  if first != ['\n'] then first ++ rest
  else if rest.isEmpty then [' ']
  else rest

/-- Blanks between two words of a quoted text. -/
def quotedSpaces (c : Cursor) : Except Refusal (List Char × Cursor) := do
  let (blanks, c) := c.span isSpaceOrTab
  require c.peek.isSome
  match c.lineBreak with
  | ([], _) => return (blanks, c)
  | (first, c) =>
    let (rest, c) ← quotedBreaks (c.rest.length + 1) c
    return (foldBreaks first rest, c)

/-- The character of an escape of one letter. -/
def escapeImage? (c : Char) : Option Char :=
  [('0', '\x00'), ('a', '\x07'), ('b', '\x08'), ('t', '\t'), ('\t', '\t'), ('n', '\n'), ('v', '\x0b'),
    ('f', '\x0c'), ('r', '\r'), ('e', '\x1b'), (' ', ' '), ('"', '"'), ('\\', '\\'), ('/', '/'),
    ('N', '\x85'), ('_', '\xa0'), ('L', '\u2028'), ('P', '\u2029')].lookup c

/-- The number of digits of an escape by number. -/
def escapeWidth? (c : Char) : Option Nat :=
  [('x', 2), ('u', 4), ('U', 8)].lookup c

def hexValue? (ds : List Char) : Option Nat :=
  ds.foldlM (fun n c => (hexDigit? c).map (n * 16 + ·)) 0

/-- The character of a number that an escape gives. -/
def escapedChar (n : Nat) : Except Refusal Char :=
  if n.isValidChar then .ok (Char.ofNat n)
  else if n < 0x110000 then .error .halfCharacter
  else if n < 0x80000000 then .error (.content "chr() arg not in range(0x110000)")
  else .error (.other .overflow)

/-- An escape after its backslash: what it stands for, and the place after it. -/
def escaped (c : Cursor) : Except Refusal (List Char × Cursor) :=
  match c.peek with
  | none => .error .notYaml
  | some ch =>
    match escapeImage? ch, escapeWidth? ch with
    | some image, _ => .ok ([image], c.next)
    | none, some width =>
      let ds := c.next.rest.take width
      match hexValue? ds with
      | some n =>
        if ds.length = width then do return ([← escapedChar n], c.skip (width + 1))
        else .error .notYaml
      | none => .error .notYaml
    | none, none =>
      match c.lineBreak with
      | ([], _) => .error .notYaml
      | (_, c) => quotedBreaks (c.rest.length + 1) c

/-- A character that ends a run of plain text between quotes. -/
def isQuotedStop (c : Char) : Bool :=
  c == '\'' || c == '"' || c == '\\' || isSpaceOrTab c || isBreak c

/-- The words between quotes, up to and past the closing quote. -/
def quotedText (double : Bool) : Nat → Cursor → Except Refusal (List Char × Cursor)
  | 0, _ => .error .notYaml
  | fuel + 1, c => do
    let (run, c) := c.span (!isQuotedStop ·)
    match c.rest with
    | '\'' :: '\'' :: _ =>
      if double then
        let (more, c) ← quotedText double fuel c.next
        return (run ++ '\'' :: more, c)
      else
        let (more, c) ← quotedText double fuel (c.skip 2)
        return (run ++ '\'' :: more, c)
    | '\'' :: _ =>
      if double then
        let (more, c) ← quotedText double fuel c.next
        return (run ++ '\'' :: more, c)
      else return (run, c.next)
    | '"' :: _ =>
      if double then return (run, c.next)
      else
        let (more, c) ← quotedText double fuel c.next
        return (run ++ '"' :: more, c)
    | '\\' :: _ =>
      if double then
        let (image, c) ← escaped c.next
        let (more, c) ← quotedText double fuel c
        return (run ++ image ++ more, c)
      else
        let (more, c) ← quotedText double fuel c.next
        return (run ++ '\\' :: more, c)
    | _ =>
      let (blanks, c) ← quotedSpaces c
      let (more, c) ← quotedText double fuel c
      return (run ++ blanks ++ more, c)

/-- A quoted scalar from its opening quote on. -/
def Cursor.quoted (c : Cursor) : Except Refusal (Token × Cursor) := do
  let (text, after) ← quotedText (c.at? '"') (c.rest.length + 1) c.next
  return (.scalar (String.ofList text) false, after)

/-- Blank lines inside a plain scalar; `none` when a document separator follows a break. -/
def plainBreaks : Nat → Cursor → Option (List Char) × Cursor
  | 0, c => (some [], c)
  | fuel + 1, c =>
    let c := c.skipSpaces
    match c.lineBreak with
    | ([], _) => (some [], c)
    | (b, c) =>
      if c.atSeparator then (none, c)
      else
        let (bs, c) := plainBreaks fuel c
        (bs.map (b ++ ·), c)

/-- Blanks after a word of a plain scalar: what they are read as (`none` when the scalar ends), whether
a line ended, and the place after them. -/
def plainSpaces (c : Cursor) : Option (List Char) × Bool × Cursor :=
  let (blanks, c) := c.span (· == ' ')
  match c.lineBreak with
  | ([], _) => (if blanks.isEmpty then none else some blanks, false, c)
  | (first, c) =>
    if c.atSeparator then (none, true, c)
    else
      let (rest, c) := plainBreaks (c.rest.length + 1) c
      (rest.map (foldBreaks first), true, c)

/-- Characters that end a plain scalar inside brackets. -/
def isFlowStop (c : Char) : Bool := c == ',' || c == '?' || c == '[' || c == ']' || c == '{' || c == '}'

/-- One word of a plain scalar. -/
def plainWord (inFlow : Bool) : List Char → List Char
  | [] => []
  | ch :: rest =>
    if isGap (some ch) then []
    else if ch = ':' && (isGap rest.head? ||
        (inFlow && rest.head?.any (",[]\x7b\x7d" : String).toList.contains)) then []
    else if inFlow && isFlowStop ch then []
    else ch :: plainWord inFlow rest

/-- The words of a plain scalar, whether a line ended after the last one, and the place after it. -/
def plainText (inFlow : Bool) (indent : Int) : Nat → Cursor → List Char × Bool × Cursor
  | 0, c => ([], false, c)
  | fuel + 1, c =>
    let word := if c.at? '#' then [] else plainWord inFlow c.rest
    if word.isEmpty then ([], false, c)
    else
      let (spaces, ended, after) := plainSpaces (c.skip word.length)
      match spaces with
      | none => (word, ended, after)
      | some blanks =>
        if after.at? '#' || (!inFlow && (after.column : Int) < indent) then (word, ended, after)
        else
          match plainText inFlow indent fuel after with
          | ([], _, after) => (word, ended, after)
          | (more, ended, after) => (word ++ blanks ++ more, ended, after)

/-- A plain scalar, with whether a line ended behind it. -/
def Cursor.plain (c : Cursor) (inFlow : Bool) (indent : Int) : Token × Bool × Cursor :=
  let (text, ended, after) := plainText inFlow (indent + 1) (c.rest.length + 1) c
  (.scalar (String.ofList text) true, ended, after)

/-- What happens to the line breaks at the end of a block: one is kept, none, or all. -/
inductive Chomping
  | clip | strip | keep
deriving DecidableEq

def chompingOf? (c : Option Char) : Option Chomping :=
  match c with
  | some '+' => some .keep
  | some '-' => some .strip
  | _ => none

/-- A digit of indentation; zero is refused. -/
def indentationOf? (c : Option Char) : Except Refusal (Option Nat) :=
  match c with
  | some ch =>
    if ch = '0' then .error .notYaml
    else if Text.isAsciiDigit ch then .ok (some (ch.toNat - 48))
    else .ok none
  | none => .ok none

/-- The header of a block: chomping and indentation in either order, and the end of the line. -/
def Cursor.blockHeader (c : Cursor) : Except Refusal (Chomping × Option Nat × Cursor) := do
  match chompingOf? c.peek with
  | some chomping =>
    let width ← indentationOf? (c.peekAt 1)
    let c := c.skip (if width.isSome then 2 else 1)
    require (isGapNoTab c.peek)
    return (chomping, width, ← c.restOfLine)
  | none =>
    let width ← indentationOf? c.peek
    let c := if width.isSome then c.next else c
    let chomping := if width.isSome then chompingOf? c.peek else none
    let c := if chomping.isSome then c.next else c
    require (isGapNoTab c.peek)
    return (chomping.getD .clip, width, ← c.restOfLine)

/-- Leading blank lines of a block, and the widest indentation among them and the first line. -/
def blockIndentation : Nat → Nat → Cursor → List Char × Nat × Cursor
  | 0, widest, c => ([], widest, c)
  | fuel + 1, widest, c =>
    let c := c.skipSpaces
    let widest := max widest c.column
    match c.lineBreak with
    | ([], _) => ([], widest, c)
    | (b, c) =>
      let (bs, widest, c) := blockIndentation fuel widest c
      (b ++ bs, widest, c)

/-- Up to `n` spaces. -/
def Cursor.skipSpacesTo (c : Cursor) (column : Nat) : Cursor :=
  c.skip ((c.rest.takeWhile (· == ' ')).length.min (column - c.column))

/-- Blank lines inside a block of a known indentation. -/
def blockBreaks (indent : Nat) : Nat → Cursor → List Char × Cursor
  | 0, c => ([], c)
  | fuel + 1, c =>
    let c := c.skipSpacesTo indent
    match c.lineBreak with
    | ([], _) => ([], c)
    | (b, c) =>
      let (bs, c) := blockBreaks indent fuel c
      (b ++ bs, c)

/-- The lines of a block: the text, the last line break and the blank lines after it. -/
def blockLines (folded : Bool) (indent : Nat) :
    Nat → List Char → Cursor → List Char × List Char × List Char × Cursor
  | 0, breaks, c => ([], [], breaks, c)
  | fuel + 1, breaks, c =>
    if c.column = indent && c.peek.isSome then
      let flush := !(c.peek.any isSpaceOrTab)
      let (line, c) := c.line?
      let (lineBreak, c) := c.lineBreak
      let (after, c) := blockBreaks indent (c.rest.length + 1) c
      if c.column = indent && c.peek.isSome then
        let joint :=
          if folded && lineBreak == ['\n'] && flush && !(c.peek.any isSpaceOrTab) then
            (if after.isEmpty then [' '] else [])
          else lineBreak
        let (more, last, tail, c) := blockLines folded indent fuel after c
        (breaks ++ line ++ joint ++ more, last, tail, c)
      else (breaks ++ line, lineBreak, after, c)
    else ([], [], breaks, c)

/-- A block scalar from its indicator on, inside a block of the given indentation. -/
def Cursor.block (c : Cursor) (indent : Int) : Except Refusal (Token × Cursor) := do
  let folded := c.at? '>'
  let (chomping, width, c) ← c.next.blockHeader
  let least := (max (indent + 1) 1).toNat
  let (breaks, column, c) := match width with
    | none =>
      let (breaks, widest, c) := blockIndentation (c.rest.length + 1) 0 c
      (breaks, max least widest, c)
    | some n =>
      let column := least + n - 1
      let (breaks, c) := blockBreaks column (c.rest.length + 1) c
      (breaks, column, c)
  let (text, last, tail, c) := blockLines folded column (c.rest.length + 1) breaks c
  let ending := match chomping with
    | .strip => []
    | .clip => last
    | .keep => last ++ tail
  return (.scalar (String.ofList (text ++ ending)) false, c)

end ToolServer.Yaml
