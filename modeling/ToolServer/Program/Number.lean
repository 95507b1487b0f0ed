import ToolServer.Decimal.Digits
import ToolServer.Text.Class

/-!
# Number literals

Numbers in base two, eight, ten and sixteen, with single underscores between digits, a fraction, an
exponent and the mark of an imaginary number. A letter may follow a number only as the start of one of a
few keywords.
-/

namespace ToolServer.Program

open Text (hexDigit? isAsciiDigit isAsciiLetter)

/-- Whether a character goes on with a name or a number; all beyond ASCII do. -/
def isWordChar (c : Char) : Bool := isAsciiLetter c || isAsciiDigit c || c == '_' || c.toNat ≥ 0x80

/-- A keyword that ends where the word ends. -/
def startsWithWord (word : String) (text : List Char) : Bool :=
  word.toList.isPrefixOf text && !(((text.drop word.length).head?.map isWordChar).getD false)

/-- Whether what follows a number may follow it. -/
def endsNumber (text : List Char) : Bool :=
  match text with
  | [] => true
  | c :: _ =>
    !isWordChar c || ["and", "else", "for", "or", "not"].any (startsWithWord · text) ||
      ["if", "in", "is"].any fun w => w.toList.isPrefixOf text

/-- What is left after more digits of a class; each underscore stands before a digit. -/
def moreDigits? (isDigit : Char → Bool) : List Char → Option (List Char)
  | '_' :: d :: rest => if isDigit d then moreDigits? isDigit rest else none
  | ['_'] => none
  | d :: rest => if isDigit d then moreDigits? isDigit rest else some (d :: rest)
  | [] => some []

/-- The digits of a base, by the letter that marks it after a zero. -/
def baseDigits? (mark : Char) : Option (Char → Bool) :=
  if mark = 'x' || mark = 'X' then some fun c => (hexDigit? c).isSome
  else if mark = 'o' || mark = 'O' then some fun c => '0' ≤ c && c ≤ '7'
  else if mark = 'b' || mark = 'B' then some fun c => c == '0' || c == '1'
  else none

/-- A number's end, and whether it is imaginary. -/
abbrev Rest := Bool × List Char

def realEnd? (text : List Char) : Option Rest := if endsNumber text then some (false, text) else none

/-- The mark of an imaginary number, or none. -/
def markEnd? (text : List Char) : Option Rest :=
  match text with
  | j :: rest =>
    if j = 'j' || j = 'J' then (if endsNumber rest then some (true, rest) else none) else realEnd? text
  | [] => realEnd? text

/-- An exponent or none, then the end. -/
def exponentEnd? (text : List Char) : Option Rest :=
  match text with
  | e :: rest =>
    if e = 'e' || e = 'E' then
      match rest with
      | '+' :: d :: more | '-' :: d :: more =>
        if isAsciiDigit d then (moreDigits? isAsciiDigit more).bind markEnd? else none
      | d :: more =>
        if isAsciiDigit d then (moreDigits? isAsciiDigit more).bind markEnd? else realEnd? text
      | [] => none
    else markEnd? text
  | [] => markEnd? text

/-- What follows the point of a number. -/
def fractionEnd? (text : List Char) : Option Rest :=
  match text with
  | d :: rest =>
    if isAsciiDigit d then (moreDigits? isAsciiDigit rest).bind exponentEnd? else exponentEnd? text
  | [] => exponentEnd? text

/-- What follows the whole part. Alone, it starts with a zero only if it is one, and has no more digits
than are read. -/
def wholeEnd? (whole rest : List Char) : Option Rest :=
  let ds := whole.filter isAsciiDigit
  match rest with
  | '.' :: rest => fractionEnd? rest
  | c :: _ =>
    if c = 'e' || c = 'E' || c = 'j' || c = 'J' then exponentEnd? rest
    else if isWhole ds then realEnd? rest else none
  | [] => if isWhole ds then realEnd? [] else none
where
  isWhole (ds : List Char) : Bool :=
    ds.length ≤ Decimal.integerLimit && (ds.head? != some '0' || ds.all (· == '0'))

/-- A number in base ten. -/
def decimalEnd? (text : List Char) : Option Rest :=
  match text with
  | d :: rest =>
    if isAsciiDigit d then do
      let left ← moreDigits? isAsciiDigit rest
      wholeEnd? (text.take (text.length - left.length)) left
    else none
  | [] => none

/-- A number in another base, from its mark on. -/
def basedEnd? (isDigit : Char → Bool) (text : List Char) : Option Rest := do
  let digits ← match text with
    | '_' :: d :: rest => if isDigit d then some rest else none
    | d :: rest => if isDigit d then some rest else none
    | [] => none
  let left ← moreDigits? isDigit digits
  realEnd? left

/-- The number at the start of a text. -/
def numberEnd? (text : List Char) : Option Rest :=
  match text with
  | '0' :: mark :: rest =>
    match baseDigits? mark with
    | some isDigit => basedEnd? isDigit rest
    | none => decimalEnd? text
  | '.' :: rest => fractionEnd? rest
  | _ => decimalEnd? text

end ToolServer.Program
