import ToolServer.Decimal.Digits
import ToolServer.Text.Class
import ToolServer.Yaml.Cursor
import ToolServer.Yaml.Refusal
import ToolServer.Yaml.Token

/-!
# Names, tags and directives

The tokens of YAML that name things: anchors and aliases, tags with their handles and escaped
addresses, and the directives at the head of a document.
-/

namespace ToolServer.Yaml

open Text (isAsciiLetter isAsciiDigit hexDigit?)

def isWordChar (c : Char) : Bool := isAsciiLetter c || isAsciiDigit c || c == '-' || c == '_'

def isAddressChar (c : Char) : Bool :=
  isAsciiLetter c || isAsciiDigit c || "-;/?:@&=+$,_.!~*'()[]%".toList.contains c

/-- Fail unless a condition holds. -/
def require (condition : Bool) : Except Refusal Unit :=
  if condition then .ok () else .error .notYaml

/-- A name after its indicator. -/
def Cursor.name (c : Cursor) : Except Refusal (String × Cursor) := do
  let (word, after) := c.next.span isWordChar
  require (!word.isEmpty)
  require (isGap after.peek || (after.peek.any ("?:,]\x7d%@" : String).toList.contains))
  return (String.ofList word, after)

/-- Bytes that are written as a percent sign and two digits, as many as stand in a row. -/
def percentBytes : List Char → Except Refusal (List UInt8 × List Char)
  | '%' :: a :: b :: rest =>
    match hexDigit? a, hexDigit? b with
    | some x, some y => do
      let (bytes, left) ← percentBytes rest
      return (UInt8.ofNat (16 * x + y) :: bytes, left)
    | _, _ => .error .notYaml
  | '%' :: _ => .error .notYaml
  | rest => .ok ([], rest)

/-- An address of a tag, its escapes decoded. -/
def addressText : Nat → List Char → Except Refusal (List Char)
  | 0, _ => .error .notYaml
  | _, [] => .ok []
  | fuel + 1, c :: rest =>
    if c = '%' then do
      let (bytes, left) ← percentBytes (c :: rest)
      match String.fromUTF8? ⟨bytes.toArray⟩ with
      | some s => return s.toList ++ (← addressText fuel left)
      | none => .error .notYaml
    else do return c :: (← addressText fuel rest)

def Cursor.address (c : Cursor) : Except Refusal (String × Cursor) := do
  let (run, after) := c.span isAddressChar
  require (!run.isEmpty)
  let text ← addressText (run.length + 1) run
  return (String.ofList text, after)

/-- A handle: an exclamation mark before a space, or a word between two. -/
def Cursor.handle (c : Cursor) : Except Refusal (String × Cursor) := do
  require (c.at? '!')
  if c.peekAt 1 == some ' ' then return ("!", c.next)
  let (word, after) := c.next.span isWordChar
  require (after.at? '!')
  return (String.ofList ('!' :: word ++ ['!']), after.next)

/-- A tag: written out between angle brackets, the bare mark, or a handle and the rest. -/
def Cursor.tag (c : Cursor) : Except Refusal (Token × Cursor) := do
  let (token, after) ← (do
    if c.peekAt 1 == some '<' then
      let (suffix, after) ← (c.skip 2).address
      require (after.at? '>')
      return (Token.tag none suffix, after.next)
    else if isGap (c.peekAt 1) then
      return (Token.tag none "!", c.next)
    else
      let word := c.next.rest.takeWhile fun ch => !(ch == ' ' || isBreak ch)
      let (handle, after) ← if word.contains '!' then c.handle else pure ("!", c.next)
      let (suffix, after) ← after.address
      return (Token.tag (some handle) suffix, after))
  require (isGapNoTab after.peek)
  return (token, after)

/-- Spaces, a comment and the end of the line. -/
def Cursor.restOfLine (c : Cursor) : Except Refusal Cursor := do
  let c := c.skipSpaces
  let c := if c.at? '#' then c.line?.2 else c
  require (isLineEnd c.peek)
  return c.lineBreak.2

def Cursor.versionNumber (c : Cursor) : Except Refusal (Nat × Cursor) := do
  let (ds, after) := c.span isAsciiDigit
  require (!ds.isEmpty)
  return (Decimal.ofDigits ds, after)

/-- A directive, from its percent sign to the end of its line. -/
def Cursor.directive (c : Cursor) : Except Refusal (Token × Cursor) := do
  let (word, after) := c.next.span isWordChar
  require (!word.isEmpty && isGapNoTab after.peek)
  let (d, after) ← (do
    if word = "YAML".toList then
      let (major, after) ← after.skipSpaces.versionNumber
      require (after.at? '.')
      let (minor, after) ← after.next.versionNumber
      require (isGapNoTab after.peek)
      return (Directive.version major minor, after)
    else if word = "TAG".toList then
      let (handle, after) ← after.skipSpaces.handle
      require (after.at? ' ')
      let (image, after) ← after.skipSpaces.address
      require (isGapNoTab after.peek)
      return (Directive.tag handle image, after)
    else return (Directive.reserved, after.line?.2))
  return (.directive d, ← after.restOfLine)

end ToolServer.Yaml
