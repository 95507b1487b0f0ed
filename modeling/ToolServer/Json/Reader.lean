import ToolServer.Document.Value
import ToolServer.Json.Refusal
import ToolServer.Text.Class

/-!
# Reading JSON

A JSON text as a document value. Members keep their order; a repeated name keeps its first place and
takes its last value. Integers are exact, other numbers are rounded to double precision, and the words
`NaN`, `Infinity` and `-Infinity` are numbers too.

While reading, a fault holds the number of characters left at its position.
-/

namespace ToolServer.Json

open Decimal (Double ofDigits)
open Document (Value Scalar Entries)
open Text (isAsciiDigit hexDigit?)

def refuse {α : Type} (cause : Cause) (left : List Char) : Except Refusal α :=
  .error (.notJson cause left.length)

def isSpace (c : Char) : Bool := c == ' ' || c == '\t' || c == '\n' || c == '\r'

def skipSpace (cs : List Char) : List Char := cs.dropWhile isSpace

/-- The character of a single-letter escape. -/
def escapeImage? (c : Char) : Option Char :=
  match c with
  | '"' => some '"'
  | '\\' => some '\\'
  | '/' => some '/'
  | 'b' => some '\x08'
  | 'f' => some '\x0c'
  | 'n' => some '\n'
  | 'r' => some '\r'
  | 't' => some '\t'
  | _ => none

def fourHex? (a b c d : Char) : Option Nat := do
  return ((← hexDigit? a) * 16 + (← hexDigit? b)) * 256 + (← hexDigit? c) * 16 + (← hexDigit? d)

def isHighSurrogate (n : Nat) : Bool := 0xd800 ≤ n && n < 0xdc00

def isLowSurrogate (n : Nat) : Bool := 0xdc00 ≤ n && n < 0xe000

/-- A unit that is a character by itself. -/
def unitChar (n : Nat) : Except Refusal Char :=
  if isHighSurrogate n || isLowSurrogate n then .error .halfCharacter else .ok (Char.ofNat n)

/-- Code units as characters: two surrogates in a row are one character, and a lone one is none. -/
def joinUnits : List Nat → Except Refusal (List Char)
  | [] => .ok []
  | [n] => do return [← unitChar n]
  | m :: n :: rest =>
    if isHighSurrogate m && isLowSurrogate n then do
      return Char.ofNat (0x10000 + (m - 0xd800) * 0x400 + (n - 0xdc00)) :: (← joinUnits rest)
    else do
      let c ← unitChar m
      return c :: (← joinUnits (n :: rest))

/-- The units of a string up to its closing quote; `opened` is the text from the opening quote on. -/
def readUnits (opened : List Char) (acc : List Nat) : List Char → Except Refusal (List Nat × List Char)
  | '"' :: rest => .ok (acc.reverse, rest)
  | '\\' :: 'u' :: a :: b :: c :: d :: e :: rest =>
    match fourHex? a b c d with
    | none => refuse .unicodeEscape ('u' :: a :: b :: c :: d :: e :: rest)
    | some n => readUnits opened (n :: acc) (e :: rest)
  | '\\' :: 'u' :: rest => refuse .unicodeEscape ('u' :: rest)
  | '\\' :: c :: rest =>
    match escapeImage? c with
    | some image => readUnits opened (image.toNat :: acc) rest
    | none => refuse .escape ('\\' :: c :: rest)
  | ['\\'] => refuse .unterminated opened
  | [] => refuse .unterminated opened
  | c :: rest =>
    if c.toNat < 0x20 then refuse .control (c :: rest)
    else readUnits opened (c.toNat :: acc) rest

/-- A string, from after its opening quote. -/
def readString (opened rest : List Char) : Except Refusal (String × List Char) := do
  let (units, rest) ← readUnits opened [] rest
  return (String.ofList (← joinUnits units), rest)

/-- The part of a number after its point, if a digit follows the point. -/
def readPart : List Char → List Char × List Char
  | '.' :: c :: rest =>
    if isAsciiDigit c then
      (c :: rest.takeWhile isAsciiDigit, rest.dropWhile isAsciiDigit)
    else ([], '.' :: c :: rest)
  | rest => ([], rest)

/-- The exponent of a number, if it has digits. -/
def readExponent (text : List Char) : Option Int × List Char :=
  match text with
  | e :: rest =>
    if e = 'e' || e = 'E' then
      let (negative, body) := match rest with
        | '-' :: body => (true, body)
        | '+' :: body => (false, body)
        | body => (false, body)
      let ds := body.takeWhile isAsciiDigit
      if ds.isEmpty then (none, text)
      else
        let n : Int := ofDigits ds
        (some (if negative then -n else n), body.dropWhile isAsciiDigit)
    else (none, text)
  | [] => (none, [])

/-- A number from its first digit on. -/
def readMagnitude (negative : Bool) (start text : List Char) : Except Refusal (Value × List Char) :=
  let whole := match text with
    | '0' :: _ => ['0']
    | _ => text.takeWhile isAsciiDigit
  if whole.isEmpty then refuse .value start
  else
    let (part, rest) := readPart (text.drop whole.length)
    let (exponent, rest) := readExponent rest
    if part.isEmpty && exponent.isNone then
      if whole.length > Decimal.integerLimit then .error (.tooManyDigits whole.length)
      else
        let n : Int := ofDigits whole
        .ok (.int (if negative then -n else n), rest)
    else
      let e := exponent.getD 0 - part.length
      .ok (.real (Double.ofDecimal negative (ofDigits (whole ++ part)) e), rest)

/-- The words that are values. -/
def literals : List (List Char × Value) := [
  ("null".toList, .null), ("true".toList, .bool true), ("false".toList, .bool false),
  ("NaN".toList, .real Double.nan), ("Infinity".toList, .real (Double.infinity false)),
  ("-Infinity".toList, .real (Double.infinity true))]

/-- A word or a number. -/
def readScalar (text : List Char) : Except Refusal (Value × List Char) :=
  match literals.find? fun (word, _) => word.isPrefixOf text with
  | some (word, v) => .ok (v, text.drop word.length)
  | none => match text with
    | '-' :: rest => readMagnitude true text rest
    | _ => readMagnitude false text text

mutual
/-- One value at the start of a text. -/
def readValue : Nat → List Char → Except Refusal (Value × List Char)
  | 0, text => refuse .value text
  | fuel + 1, text =>
    match text with
    | '"' :: rest => do
      let (s, rest) ← readString text rest
      return (.text s, rest)
    | '{' :: rest =>
      match skipSpace rest with
      | '}' :: rest => .ok (.map [], rest)
      | rest => readMembers fuel [] rest
    | '[' :: rest =>
      match skipSpace rest with
      | ']' :: rest => .ok (.list [], rest)
      | rest => readItems fuel [] rest
    | text => readScalar text
/-- The items of a list from its first item on. -/
def readItems : Nat → List Value → List Char → Except Refusal (Value × List Char)
  | 0, _, text => refuse .value text
  | fuel + 1, items, text => do
    let (v, rest) ← readValue fuel text
    match skipSpace rest with
    | ']' :: rest => return (.list (v :: items).reverse, rest)
    | ',' :: rest => readItems fuel (v :: items) (skipSpace rest)
    | rest => refuse .comma rest
/-- The members of a map from its first name on. -/
def readMembers : Nat → Entries → List Char → Except Refusal (Value × List Char)
  | 0, _, text => refuse .value text
  | fuel + 1, entries, text =>
    match text with
    | '"' :: rest => do
      let (name, rest) ← readString text rest
      match skipSpace rest with
      | ':' :: rest =>
        let (v, rest) ← readValue fuel (skipSpace rest)
        let entries := Ordered.put (.text name) v entries
        match skipSpace rest with
        | '}' :: rest => return (.map entries, rest)
        | ',' :: rest => readMembers fuel entries (skipSpace rest)
        | rest => refuse .comma rest
      | rest => refuse .colon rest
    | text => refuse .name text
end

/-- A whole text: one value with space around it. Each reading step that calls another either takes a
character or is followed by one that does, so twice the length of the text bounds the steps. -/
def readText (text : List Char) : Except Refusal Value :=
  match text with
  | '\ufeff' :: _ => refuse .mark text
  | _ => do
    let (v, rest) ← readValue (2 * text.length + 2) (skipSpace text)
    match skipSpace rest with
    | [] => return v
    | rest => refuse .extra rest

/-- A fault with its position counted from the start of a text of the given length. -/
def Refusal.fromStart (length : Nat) : Refusal → Refusal
  | notJson cause left => notJson cause (length - left)
  | fault => fault

/-- Read a JSON text. -/
def read (text : String) : Except Refusal Value :=
  (readText text.toList).mapError (Refusal.fromStart text.toList.length)

end ToolServer.Json
