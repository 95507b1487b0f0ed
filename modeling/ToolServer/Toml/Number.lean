import ToolServer.Document.Calendar
import ToolServer.Text.Class

/-!
# Unquoted scalars

Numbers, words, dates and times. Each reader gives what is left after the longest scalar of its form at
the start of a text.
-/

namespace ToolServer.Toml

open Document (daysIn)
open Text (hexDigit? isAsciiDigit)

/-- Digits of a class, each one but the first with at most one underscore before it. -/
def skipDigits (isDigit : Char → Bool) : List Char → List Char
  | '_' :: d :: rest => if isDigit d then skipDigits isDigit rest else '_' :: d :: rest
  | d :: rest => if isDigit d then skipDigits isDigit rest else d :: rest
  | [] => []

/-- Digits of a class, at least one. -/
def digits? (isDigit : Char → Bool) : List Char → Option (List Char)
  | d :: rest => if isDigit d then some (skipDigits isDigit rest) else none
  | [] => none

/-- The digits of a base, by the letter that marks it after a zero. -/
def baseDigits? (mark : Char) : Option (Char → Bool) :=
  match mark with
  | 'x' => some fun c => (hexDigit? c).isSome
  | 'b' => some fun c => c == '0' || c == '1'
  | 'o' => some fun c => '0' ≤ c && c ≤ '7'
  | _ => none

def skipSign : List Char → List Char
  | '+' :: rest => rest
  | '-' :: rest => rest
  | text => text

/-- The digits before the point: a zero stands alone. -/
def whole? : List Char → Option (List Char)
  | '0' :: rest => some rest
  | text => digits? isAsciiDigit text

/-- The part after a point, if there is one. -/
def skipPart (text : List Char) : List Char :=
  match text with
  | '.' :: rest => (digits? isAsciiDigit rest).getD text
  | text => text

def skipExponent (text : List Char) : List Char :=
  match text with
  | e :: rest => if e = 'e' || e = 'E' then (digits? isAsciiDigit (skipSign rest)).getD text else text
  | [] => []

def decimal? (text : List Char) : Option (List Char) :=
  (whole? (skipSign text)).map fun rest => skipExponent (skipPart rest)

/-- A number in any base; a mark without digits leaves a zero. -/
def number? (text : List Char) : Option (List Char) :=
  match text with
  | '0' :: mark :: rest =>
    match (baseDigits? mark).bind (digits? · rest) with
    | some rest => some rest
    | none => decimal? text
  | text => decimal? text

/-- A whole number's decimal digits, when that is all that a number has. -/
def wholeLength (text rest : List Char) : Nat :=
  let taken := text.take (text.length - rest.length)
  if taken.any (fun c => c == '.' || c == 'e' || c == 'E' || c == 'x' || c == 'o' || c == 'b') then 0
  else taken.countP isAsciiDigit

def pair? (a b : Char) : Option Nat :=
  if isAsciiDigit a && isAsciiDigit b then some ((a.toNat - 48) * 10 + (b.toNat - 48)) else none

/-- The time of day at the start of a text. -/
def clock? : List Char → Option (List Char)
  | h₁ :: h₂ :: ':' :: m₁ :: m₂ :: ':' :: s₁ :: s₂ :: rest => do
    let h ← pair? h₁ h₂
    let m ← pair? m₁ m₂
    let s ← pair? s₁ s₂
    if h < 24 && m < 60 && s < 60 then
      match rest with
      | '.' :: d :: more => if isAsciiDigit d then some (more.dropWhile isAsciiDigit) else some rest
      | _ => some rest
    else none
  | _ => none

/-- An offset from universal time, if there is one. -/
def skipOffset (text : List Char) : List Char :=
  match text with
  | 'Z' :: rest => rest
  | 'z' :: rest => rest
  | sign :: h₁ :: h₂ :: ':' :: m₁ :: m₂ :: rest =>
    match pair? h₁ h₂, pair? m₁ m₂ with
    | some h, some m => if (sign = '+' || sign = '-') && h < 24 && m < 60 then rest else text
    | _, _ => text
  | text => text

/-- The time after a date, if there is one. -/
def skipClock (text : List Char) : List Char :=
  match text with
  | mark :: rest =>
    if mark = 'T' || mark = 't' || mark = ' ' then ((clock? rest).map skipOffset).getD text else text
  | [] => []

/-- A date with or without a time: nothing if the text has not that form, and refused if the calendar
has no such day. -/
def date? : List Char → Option (Option (List Char))
  | y₁ :: y₂ :: y₃ :: y₄ :: '-' :: m₁ :: m₂ :: '-' :: d₁ :: d₂ :: rest => do
    let century ← pair? y₁ y₂
    let y ← pair? y₃ y₄
    let m ← pair? m₁ m₂
    let d ← pair? d₁ d₂
    let year := century * 100 + y
    if 1 ≤ m && m ≤ 12 && 1 ≤ d && d ≤ 31 then
      some (if 1 ≤ year && d ≤ daysIn year m then some (skipClock rest) else none)
    else none
  | _ => none

/-- The words that are values. -/
def words : List String := ["true", "false", "inf", "nan", "-inf", "+inf", "-nan", "+nan"]

def word? (text : List Char) : Option (List Char) :=
  (words.find? (·.toList.isPrefixOf text)).map fun w => text.drop w.length

end ToolServer.Toml
