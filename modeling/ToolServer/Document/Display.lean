import ToolServer.Document.Value
import ToolServer.Text.Class

/-!
# Display of values

The text that a value shows as. A text shows as itself at the top and quoted inside a list or map;
truth values, the absent value, dates and bytes have fixed spellings.
-/

namespace ToolServer.Document

open Decimal (intText natText Double)
open Text (isPrintable hexText)

/-- How one character is written between quotes. -/
def quotedChar (quote : Char) (c : Char) : List Char :=
  if c = quote || c = '\\' then ['\\', c]
  else if c = '\t' then ['\\', 't']
  else if c = '\n' then ['\\', 'n']
  else if c = '\r' then ['\\', 'r']
  else if isPrintable c then [c]
  else if c.toNat < 0x100 then '\\' :: 'x' :: hexText 2 c.toNat
  else if c.toNat < 0x10000 then '\\' :: 'u' :: hexText 4 c.toNat
  else '\\' :: 'U' :: hexText 8 c.toNat

/-- Single quotes, unless only double ones keep the text free of escaped quotes. -/
def quoteFor (s : List Char) : Char :=
  if s.contains '\'' && !s.contains '"' then '"' else '\''

def quotedText (s : String) : String :=
  let quote := quoteFor s.toList
  String.ofList (quote :: (s.toList.flatMap (quotedChar quote) ++ [quote]))

/-- Bytes outside printable ASCII are written by number. -/
def quotedBytes (bs : List UInt8) : String :=
  let cs := bs.map fun b => Char.ofNat b.toNat
  let quote := quoteFor cs
  let show1 (c : Char) : List Char :=
    if c.toNat < 0x7f then quotedChar quote c else '\\' :: 'x' :: hexText 2 c.toNat
  String.ofList ('b' :: quote :: (cs.flatMap show1 ++ [quote]))

/-- A span of time as whole days and the seconds left over, the parts that are zero left out. -/
def spanText (seconds : Int) : String :=
  let days := Int.fdiv seconds 86400
  let left := Int.fmod seconds 86400
  let parts := (if days = 0 then [] else ["days=" ++ intText days]) ++
    (if left = 0 then [] else ["seconds=" ++ intText left])
  "datetime.timedelta(" ++ (if parts.isEmpty then "0" else ", ".intercalate parts) ++ ")"

def quotedDate (d : Date) : String :=
  "datetime.date(" ++ ", ".intercalate ([d.year, d.month, d.day].map natText) ++ ")"

def quotedMoment (t : Moment) : String :=
  let part := if t.microsecond = 0 then [] else [t.microsecond]
  let second := if t.second = 0 && part.isEmpty then [] else [t.second]
  let numbers := [t.date.year, t.date.month, t.date.day, t.hour, t.minute] ++ second ++ part
  let zone := match t.offset with
    | none => []
    | some 0 => ["tzinfo=datetime.timezone.utc"]
    | some n => ["tzinfo=datetime.timezone(" ++ spanText n ++ ")"]
  "datetime.datetime(" ++ ", ".intercalate (numbers.map natText ++ zone) ++ ")"

namespace Scalar

/-- The text of a scalar inside a list or map. -/
def quoted : Scalar → String
  | null => "None"
  | bool b => if b then "True" else "False"
  | int n => intText n
  | real x => x.text
  | text s => quotedText s
  | date d => quotedDate d
  | moment t => quotedMoment t
  | bytes bs => quotedBytes bs

/-- The text of a scalar that stands alone. -/
def display : Scalar → String
  | text s => s
  | date d => d.text
  | moment t => t.text
  | s => s.quoted

end Scalar

namespace Value

mutual
/-- The text of a value inside a list or map. -/
def quoted : Value → String
  | scalar s => s.quoted
  | list items => "[" ++ ", ".intercalate (quotedItems items) ++ "]"
  | map entries => "\x7b" ++ ", ".intercalate (quotedEntries entries) ++ "\x7d"
  | set [] => "set()"
  | set members => "\x7b" ++ ", ".intercalate (members.map Scalar.quoted) ++ "\x7d"
  | pair a b => "(" ++ quoted a ++ ", " ++ quoted b ++ ")"
def quotedItems : List Value → List String
  | [] => []
  | x :: xs => quoted x :: quotedItems xs
def quotedEntries : List (Scalar × Value) → List String
  | [] => []
  | (k, v) :: rest => (k.quoted ++ ": " ++ quoted v) :: quotedEntries rest
end

/-- The text of a value that stands alone. -/
def display : Value → String
  | scalar s => s.display
  | v => v.quoted

end Value

end ToolServer.Document
