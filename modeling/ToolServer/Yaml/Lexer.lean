import ToolServer.Yaml.Scalar

/-!
# From text to tokens

The tokens of a YAML text. Outside brackets the columns at which blocks begin are kept on a stack; a
token that starts a mapping without saying so is known only by the colon behind it, so a possible key
is remembered for each level of brackets, and the tokens before it are put in when the colon comes.

A text that cannot be split further keeps the tokens found before the fault.
-/

namespace ToolServer.Yaml

/-- A place where a key may have begun: the number of tokens before it, and whether the block needs
it to be a key. -/
structure PossibleKey where
  before : Nat
  required : Bool
  index : Nat
  line : Nat
  column : Nat

structure Lexer where
  cursor : Cursor
  tokens : Array Token
  /-- The number of open brackets. -/
  depth : Int
  /-- The column of the innermost block, and of those around it. -/
  indent : Int
  outer : List Int
  /-- Whether a key may begin here. -/
  keyAllowed : Bool
  /-- The possible key of each level of brackets. -/
  keys : List (Int × PossibleKey)
  finished : Bool

namespace Lexer

def ofText (text : List Char) : Lexer :=
  ⟨.ofText text, #[], 0, -1, [], true, [], false⟩

def inFlow (s : Lexer) : Bool := s.depth != 0

def push (s : Lexer) (t : Token) : Lexer := { s with tokens := s.tokens.push t }

def insertAt (s : Lexer) (place : Nat) (t : Token) : Lexer :=
  { s with tokens := (s.tokens.toList.take place ++ t :: s.tokens.toList.drop place).toArray }

def keyHere? (s : Lexer) : Option PossibleKey := s.keys.lookup s.depth

def forgetKey (s : Lexer) : Lexer := { s with keys := s.keys.filter (·.1 != s.depth) }

/-- Give up the possible key of this level; a required one cannot be given up. -/
def dropKey (s : Lexer) : Except Refusal Lexer := do
  require (!(s.keyHere?.any (·.required)))
  return s.forgetKey

/-- Give up keys that began on an earlier line or too far back. -/
def dropStaleKeys (s : Lexer) : Except Refusal Lexer := do
  let stale (k : PossibleKey) : Bool := k.line != s.cursor.line || s.cursor.index - k.index > 1024
  require (!(s.keys.any fun (_, k) => stale k && k.required))
  return { s with keys := s.keys.filter fun (_, k) => !stale k }

/-- Remember that a key may begin here. -/
def saveKey (s : Lexer) : Except Refusal Lexer := do
  if s.keyAllowed then
    let required := !s.inFlow && s.indent == s.cursor.column
    let s' ← s.dropKey
    let k := ⟨s.tokens.size, required, s.cursor.index, s.cursor.line, s.cursor.column⟩
    return { s' with keys := (s.depth, k) :: s'.keys }
  else return s

/-- Close the blocks that begin to the right of a column. -/
def closeBlocks (column : Int) : List Int → Lexer → Lexer
  | [], s => s
  | i :: rest, s =>
    if s.indent > column then closeBlocks column rest { s.push .blockEnd with indent := i, outer := rest }
    else s

def unwind (s : Lexer) (column : Int) : Lexer :=
  if s.inFlow then s else closeBlocks column s.outer s

/-- Open a block at a column, if it is to the right of the innermost one. -/
def indentTo? (s : Lexer) (column : Nat) : Option Lexer :=
  if s.indent < column then some { s with indent := column, outer := s.indent :: s.outer } else none

/-- Spaces, comments and line breaks; a new line outside brackets allows a key. -/
def skipBlank : Nat → Lexer → Lexer
  | 0, s => s
  | fuel + 1, s =>
    let c := if s.cursor.index = 0 && s.cursor.at? '\ufeff' then s.cursor.next else s.cursor
    let c := c.skipSpaces
    let c := if c.at? '#' then c.line?.2 else c
    match c.lineBreak with
    | ([], _) => { s with cursor := c }
    | (_, c) => skipBlank fuel { s with cursor := c, keyAllowed := s.keyAllowed || !s.inFlow }

/-- Take characters as one token. -/
def take (s : Lexer) (n : Nat) (t : Token) : Lexer := { s.push t with cursor := s.cursor.skip n }

/-- Take a token that was read together with the place after it. -/
def accept (s : Lexer) (keyAllowed : Bool) (read : Token × Cursor) : Lexer :=
  { s.push read.1 with cursor := read.2, keyAllowed }

def streamEnd (s : Lexer) : Except Refusal Lexer := do
  let s ← (s.unwind (-1)).dropKey
  return { s.push .streamEnd with keyAllowed := false, keys := [], finished := true }

def directive (s : Lexer) : Except Refusal Lexer := do
  let s ← (s.unwind (-1)).dropKey
  return s.accept false (← s.cursor.directive)

def documentMark (s : Lexer) (t : Token) : Except Refusal Lexer := do
  let s ← (s.unwind (-1)).dropKey
  return { s.take 3 t with keyAllowed := false }

def flowStart (s : Lexer) (t : Token) : Except Refusal Lexer := do
  let s ← s.saveKey
  return { s.take 1 t with depth := s.depth + 1, keyAllowed := true }

def flowEnd (s : Lexer) (t : Token) : Except Refusal Lexer := do
  let s ← s.dropKey
  return { s.take 1 t with depth := s.depth - 1, keyAllowed := false }

def flowEntry (s : Lexer) : Except Refusal Lexer := do
  let s ← s.dropKey
  return { s.take 1 .flowEntry with keyAllowed := true }

/-- Open a block for an entry or a key that stands here, where one may begin. -/
def openBlock (s : Lexer) (t : Token) : Except Refusal Lexer := do
  if s.inFlow then return s
  require s.keyAllowed
  return match s.indentTo? s.cursor.column with
    | some opened => opened.push t
    | none => s

def blockEntry (s : Lexer) : Except Refusal Lexer := do
  let s ← (← s.openBlock .blockSequenceStart).dropKey
  return { s.take 1 .blockEntry with keyAllowed := true }

def explicitKey (s : Lexer) : Except Refusal Lexer := do
  let s ← (← s.openBlock .blockMappingStart).dropKey
  return { s.take 1 .key with keyAllowed := !s.inFlow }

/-- A colon: the possible key before it is one, or it stands for itself. -/
def value (s : Lexer) : Except Refusal Lexer := do
  match s.keyHere? with
  | some k =>
    let s := s.forgetKey.insertAt k.before .key
    let s := if s.inFlow then s else
      match s.indentTo? k.column with
      | some opened => opened.insertAt k.before .blockMappingStart
      | none => s
    return { s.take 1 .value with keyAllowed := false }
  | none =>
    let s ← (← s.openBlock .blockMappingStart).dropKey
    return { s.take 1 .value with keyAllowed := !s.inFlow }

def named (s : Lexer) (make : String → Token) : Except Refusal Lexer := do
  let s ← s.saveKey
  let (name, after) ← s.cursor.name
  return s.accept false (make name, after)

def tag (s : Lexer) : Except Refusal Lexer := do
  let s ← s.saveKey
  return s.accept false (← s.cursor.tag)

def blockScalar (s : Lexer) : Except Refusal Lexer := do
  let s ← s.dropKey
  return s.accept true (← s.cursor.block s.indent)

def quotedScalar (s : Lexer) : Except Refusal Lexer := do
  let s ← s.saveKey
  return s.accept false (← s.cursor.quoted)

def plainScalar (s : Lexer) : Except Refusal Lexer := do
  let s ← s.saveKey
  let (t, ended, after) := s.cursor.plain s.inFlow s.indent
  return s.accept ended (t, after)

/-- Whether a plain scalar may begin here. -/
def plainHere (s : Lexer) : Bool :=
  match s.cursor.rest with
  | [] => false
  | ch :: rest =>
    !(isGap (some ch) || "-?:,[]\x7b\x7d#&*!|>'\"%@\x60".toList.contains ch) ||
      (!isGap rest.head? && (ch == '-' || (!s.inFlow && (ch == '?' || ch == ':'))))

/-- The next token, by the character that it begins with. -/
def step (s : Lexer) : Except Refusal Lexer := do
  let s ← (s.skipBlank (s.cursor.rest.length + 1)).dropStaleKeys
  let s := s.unwind s.cursor.column
  let c := s.cursor
  let atStart := c.column == 0
  let gapNext := isGap (c.peekAt 1)
  match c.peek with
  | none => s.streamEnd
  | some ch =>
    if ch = '%' && atStart then s.directive
    else if atStart && c.atMarks '-' then s.documentMark .documentStart
    else if atStart && c.atMarks '.' then s.documentMark .documentEnd
    else if ch = '[' then s.flowStart .flowSequenceStart
    else if ch = '{' then s.flowStart .flowMappingStart
    else if ch = ']' then s.flowEnd .flowSequenceEnd
    else if ch = '}' then s.flowEnd .flowMappingEnd
    else if ch = ',' then s.flowEntry
    else if ch = '-' && gapNext then s.blockEntry
    else if ch = '?' && (s.inFlow || gapNext) then s.explicitKey
    else if ch = ':' && (s.inFlow || gapNext) then s.value
    else if ch = '*' then s.named .alias
    else if ch = '&' then s.named .anchor
    else if ch = '!' then s.tag
    else if (ch = '|' || ch = '>') && !s.inFlow then s.blockScalar
    else if ch = '\'' || ch = '"' then s.quotedScalar
    else if s.plainHere then s.plainScalar
    else .error .notYaml

/-- All tokens of a text, and the fault that ends them if the text cannot be split to its end. -/
def run : Nat → Lexer → List Token × Option Refusal
  | 0, s => (s.tokens.toList, some .notYaml)
  | fuel + 1, s =>
    if s.finished then (s.tokens.toList, none)
    else match s.step with
      | .ok s => run fuel s
      | .error fault => (s.tokens.toList, some fault)

end Lexer

/-- Characters that may stand in a text. -/
def isAllowed (c : Char) : Bool :=
  c == '\t' || c == '\n' || c == '\r' || c == '\x85' || (0x20 ≤ c.toNat && c.toNat ≤ 0x7e) ||
    (0xa0 ≤ c.toNat && c.toNat != 0xfffe && c.toNat != 0xffff)

/-- The tokens of a text. Every step but the last takes a character, which bounds their number. -/
def tokens (text : List Char) : List Token × Option Refusal :=
  if text.all isAllowed then (Lexer.ofText text).run (text.length + 2) else ([], some .notYaml)

end ToolServer.Yaml
