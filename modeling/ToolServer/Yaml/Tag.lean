import ToolServer.Text.Class

/-!
# Tags of plain scalars

Which kind of value a plain scalar stands for, by its spelling: the first of truth value, number,
integer, merge mark, null, date and default mark whose pattern it fits. All else is text.
-/

namespace ToolServer.Yaml

open Text (isAsciiDigit)

namespace Tag

def standard (name : String) : String := "tag:yaml.org,2002:" ++ name

def null := standard "null"
def bool := standard "bool"
def int := standard "int"
def float := standard "float"
def binary := standard "binary"
def timestamp := standard "timestamp"
def omap := standard "omap"
def pairs := standard "pairs"
def set := standard "set"
def str := standard "str"
def seq := standard "seq"
def map := standard "map"
def merge := standard "merge"
def value := standard "value"
def yaml := standard "yaml"

end Tag

def truthWords : List String := [
  "yes", "Yes", "YES", "no", "No", "NO", "true", "True", "TRUE", "false", "False", "FALSE",
  "on", "On", "ON", "off", "Off", "OFF"]

def dropSign : List Char → List Char
  | '-' :: s => s
  | '+' :: s => s
  | s => s

def isDigitOrLine (c : Char) : Bool := isAsciiDigit c || c == '_'

/-- One or two digits below sixty after each colon, and what follows. -/
def sixtieths : List Char → Nat × List Char
  | ':' :: a :: b :: rest =>
    if '0' ≤ a && a ≤ '5' && isAsciiDigit b then
      let (n, left) := sixtieths rest
      (n + 1, left)
    else if isAsciiDigit a then
      let (n, left) := sixtieths (b :: rest)
      (n + 1, left)
    else (0, ':' :: a :: b :: rest)
  | [':', a] => if isAsciiDigit a then (1, []) else (0, [':', a])
  | rest => (0, rest)

/-- Nothing, or an exponent with a sign. -/
def isExponentOrEnd : List Char → Bool
  | [] => true
  | e :: sign :: d :: rest =>
    (e == 'e' || e == 'E') && (sign == '-' || sign == '+') && isAsciiDigit d && rest.all isAsciiDigit
  | _ => false

def isFloat (s : List Char) : Bool :=
  let body := dropSign s
  let whole := match body with
    | c :: rest => isAsciiDigit c && (
        (match rest.dropWhile isDigitOrLine with
          | '.' :: part => isExponentOrEnd (part.dropWhile isDigitOrLine)
          | _ => false) ||
        (match sixtieths (rest.dropWhile isDigitOrLine) with
          | (n + 1, '.' :: part) => n + 1 > 0 && part.all isDigitOrLine
          | _ => false))
    | [] => false
  let part := match s with
    | '.' :: c :: rest => isAsciiDigit c && isExponentOrEnd (rest.dropWhile isDigitOrLine)
    | _ => false
  whole || part || [".inf", ".Inf", ".INF"].contains (String.ofList body) ||
    [".nan", ".NaN", ".NAN"].contains (String.ofList s)

def isInt (s : List Char) : Bool :=
  match dropSign s with
  | [] => false
  | '0' :: 'b' :: rest => !rest.isEmpty && rest.all fun c => c == '0' || c == '1' || c == '_'
  | '0' :: 'x' :: rest => !rest.isEmpty && rest.all fun c => (Text.hexDigit? c).isSome || c == '_'
  | '0' :: rest => rest.all fun c => ('0' ≤ c && c ≤ '7') || c == '_'
  | c :: rest =>
    isAsciiDigit c && (sixtieths (rest.dropWhile isDigitOrLine)).2.isEmpty

/-- The parts of a date or moment as they are written. -/
structure Stamp where
  year : List Char
  month : List Char
  day : List Char
  /-- Hour, minute, second and fraction. -/
  clock : Option (List Char × List Char × List Char × List Char)
  /-- The zone: a letter, or sign, hours and minutes. -/
  zone : Option (Option (Char × List Char × List Char))

def takeDigits (least most : Nat) (s : List Char) : Option (List Char × List Char) :=
  let ds := (s.take most).takeWhile isAsciiDigit
  if ds.length < least then none else some (ds, s.drop ds.length)

def expect (c : Char) : List Char → Option (List Char)
  | d :: rest => if c = d then some rest else none
  | [] => none

/-- The zone at the end of a moment, after blanks. -/
def zone? (s : List Char) : Option (Option (Option (Char × List Char × List Char))) :=
  match s.dropWhile fun c => c == ' ' || c == '\t' with
  | [] => if s.isEmpty then some none else none
  | ['Z'] => some (some none)
  | sign :: rest =>
    if sign = '-' || sign = '+' then do
      let (hour, rest) ← takeDigits 1 2 rest
      if rest.isEmpty then return some (some (sign, hour, []))
      let (minute, rest) ← takeDigits 2 2 (← expect ':' rest)
      if rest.isEmpty then return some (some (sign, hour, minute)) else none
    else none

/-- A date, or a date and a clock with an optional zone. -/
def stamp? (s : List Char) : Option Stamp := do
  let (year, rest) ← takeDigits 4 4 s
  let (month, rest) ← takeDigits 1 2 (← expect '-' rest)
  let (day, rest) ← takeDigits 1 2 (← expect '-' rest)
  match rest with
  | [] => return ⟨year, month, day, none, none⟩
  | c :: more =>
    let rest ← if c = 'T' || c = 't' then some more
      else if c = ' ' || c = '\t' then some (more.dropWhile fun c => c == ' ' || c == '\t')
      else none
    let (hour, rest) ← takeDigits 1 2 rest
    let (minute, rest) ← takeDigits 2 2 (← expect ':' rest)
    let (second, rest) ← takeDigits 2 2 (← expect ':' rest)
    let (fraction, rest) := match rest with
      | '.' :: rest => (rest.takeWhile isAsciiDigit, rest.dropWhile isAsciiDigit)
      | rest => ([], rest)
    return ⟨year, month, day, some (hour, minute, second, fraction), ← zone? rest⟩

/-- A date alone must have two digits for month and day. -/
def isTimestamp (s : List Char) : Bool :=
  match stamp? s with
  | some stamp => stamp.clock.isSome || (stamp.month.length == 2 && stamp.day.length == 2)
  | none => false

/-- One line feed at the end does not count. -/
def dropLastBreak (s : List Char) : List Char :=
  match s.reverse with
  | '\n' :: rest => rest.reverse
  | _ => s

/-- The tag of a plain scalar. -/
def plainTag (text : String) : String :=
  let s := dropLastBreak text.toList
  let word := String.ofList s
  if truthWords.contains word then Tag.bool
  else if isFloat s then Tag.float
  else if isInt s then Tag.int
  else if word = "<<" then Tag.merge
  else if ["", "~", "null", "Null", "NULL"].contains word then Tag.null
  else if isTimestamp s then Tag.timestamp
  else if word = "=" then Tag.value
  else if ["!", "&", "*"].contains word then Tag.yaml
  else Tag.str

end ToolServer.Yaml
