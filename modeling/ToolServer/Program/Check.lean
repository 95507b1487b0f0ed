import ToolServer.Program.Grammar
import ToolServer.Program.Lexer

/-!
# Checking programs

Whether a text is a program: it has tokens, they follow the grammar, and every string literal denotes
something. A formatted literal has expressions in braces, which follow the grammar too.
-/

namespace ToolServer.Program

/-- A string within an expression of a formatted literal: its quote, and whether there are three. -/
structure Opened where
  quote : Char
  triple : Bool

def closingOf (c : Char) : Char :=
  match c with
  | '(' => ')'
  | '[' => ']'
  | _ => '}'

def isOpening (c : Char) : Bool := c == '(' || c == '[' || c == '{'

def isClosing (c : Char) : Bool := c == ')' || c == ']' || c == '}'

/-- What an expression in a formatted literal may end at, outside strings and brackets. -/
def isFieldMark (c : Char) : Bool := c == '!' || c == ':' || c == '}' || c == '='

/-- The expression at the start of a text, up to the mark that ends it. It has no backslash and no
comment. -/
def fieldText? (inside : Option Opened) (brackets : List Char) (text : List Char) :
    Option (List Char × List Char) :=
  match text with
  | [] => none
  | c :: rest =>
    let one (inside : Option Opened) (brackets : List Char) :=
      (fieldText? inside brackets rest).map fun (e, left) => (c :: e, left)
    let three (inside : Option Opened) :=
      (fieldText? inside brackets (rest.drop 2)).map fun (e, left) => (c :: c :: c :: e, left)
    let tripled := [c, c].isPrefixOf rest
    if c = '\\' then none
    else match inside with
    | some o =>
      if c = o.quote then
        if o.triple then (if tripled then three none else one inside brackets) else one none brackets
      else one inside brackets
    | none =>
      if isQuote c then
        if tripled then three (some ⟨c, true⟩) else one (some ⟨c, false⟩) brackets
      else if isOpening c then one none (closingOf c :: brackets)
      else if c = '#' then none
      else
        let compared := (c == '!' || c == '=' || c == '<' || c == '>') && rest.head? == some '='
        if brackets.isEmpty && compared then
          (fieldText? none brackets (rest.drop 1)).map fun (e, left) => (c :: '=' :: e, left)
        else if brackets.isEmpty && isFieldMark c then some ([], text)
        else if isClosing c then
          match brackets with
          | top :: outer => if top = c then one none outer else none
          | [] => none
        else one none brackets
termination_by text.length
decreasing_by all_goals simp; try omega

/-- The literal part at the start of a formatted text, what is left, and whether it ends with a doubled
brace. Only outside format specifications are braces doubled. -/
def literalPart? (raw outermost : Bool) : List Char → Option (List Char × List Char × Bool)
  | [] => some ([], [], false)
  | '\\' :: 'N' :: '{' :: rest =>
    if raw then brace? ['\\', 'N'] '{' rest
    else
      (afterName rest).map fun (name, left, doubled) => ('\\' :: 'N' :: '{' :: name, left, doubled)
  | '\\' :: '\\' :: rest =>
    (literalPart? raw outermost rest).map fun (s, left, doubled) => ('\\' :: '\\' :: s, left, doubled)
  | c :: rest =>
    if c = '{' || c = '}' then brace? [] c rest
    else (literalPart? raw outermost rest).map fun (s, left, doubled) => (c :: s, left, doubled)
where
  /-- What a brace ends. -/
  brace? (before : List Char) (brace : Char) (rest : List Char) : Option (List Char × List Char × Bool) :=
    if outermost && rest.head? == some brace then some (before ++ [brace], rest.drop 1, true)
    else if outermost && brace == '}' then none
    else some (before, brace :: rest, false)
  /-- A character's name and what follows it. -/
  afterName : List Char → Option (List Char × List Char × Bool)
    | [] => some ([], [], false)
    | '}' :: rest => (literalPart? raw outermost rest).map fun (s, left, doubled) => ('}' :: s, left, doubled)
    | c :: rest => (afterName rest).map fun (s, left, doubled) => (c :: s, left, doubled)

def isFieldSpace (c : Char) : Bool := c == ' ' || c == '\t' || c == '\n' || c == '\x0c'

/-- Text and bytes do not stand side by side. -/
def mixed : List Token → Bool
  | .string a :: .string b :: rest => a.bytes != b.bytes || mixed (.string b :: rest)
  | _ :: rest => mixed rest
  | [] => false

mutual
/-- Whether a text has tokens with good literals that a pattern fits. -/
def follows (p : Pattern Part) : Nat → List Char → Bool
  | 0, _ => false
  | fuel + 1, text =>
    match tokens? text with
    | some tokens => tokens.all (goodToken fuel) && !mixed tokens && fits grammar p tokens
    | none => false
def goodToken : Nat → Token → Bool
  | 0, _ => false
  | fuel + 1, .string l =>
    if l.formatted then formatted? l true fuel l.body == some [] else (l.denote? l.body).isSome
  | _, _ => true
/-- What is left after the literal parts and fields of a formatted literal. -/
def formatted? (l : Literal) (outermost : Bool) : Nat → List Char → Option (List Char)
  | 0, _ => none
  | fuel + 1, text => do
    let (part, rest, doubled) ← literalPart? l.raw outermost text
    let _ ← l.denote? part
    if doubled then formatted? l outermost fuel rest
    else match rest with
      | '{' :: rest => formatted? l outermost fuel (← field? l outermost fuel rest)
      | rest => some rest
/-- What is left after a field, from after its opening brace: an expression, an equals sign, a conversion
and a format specification. -/
def field? (l : Literal) (outermost : Bool) : Nat → List Char → Option (List Char)
  | 0, _ => none
  | fuel + 1, text => do
    let (e, rest) ← fieldText? none [] text
    if e.all isFieldSpace || !follows formattedExpression fuel ('(' :: e ++ [')']) then none
    let rest := match rest with
      | '=' :: rest => rest.dropWhile fun c => isFieldSpace c || c == '\x0b'
      | rest => rest
    let rest ← match rest with
      | '!' :: c :: rest => if c = 's' || c = 'r' || c = 'a' then some rest else none
      | rest => some rest
    let rest ← match rest with
      | ':' :: rest => specification? l outermost fuel rest
      | rest => some rest
    match rest with
    | '}' :: rest => some rest
    | _ => none
/-- A format specification; its fields have specifications without fields. -/
def specification? (l : Literal) (outermost : Bool) : Nat → List Char → Option (List Char)
  | 0, _ => none
  | fuel + 1, text =>
    if outermost then formatted? l false fuel text
    else do
      let (part, rest, _) ← literalPart? l.raw false text
      let _ ← l.denote? part
      return rest
end

/-- Whether a text is a program. -/
def isProgram (text : String) : Bool :=
  let cs := text.toList
  !cs.contains '\x00' && follows program (8 * cs.length + 16) cs

end ToolServer.Program
