import ToolServer.Decimal.Written
import ToolServer.Document.Display
import ToolServer.Text.Base64
import ToolServer.Text.Case
import ToolServer.Text.Piece
import ToolServer.Yaml.Node

/-!
# Content of scalars

The value that the text of a scalar stands for under its tag. Numbers may be written in several bases,
with underscores, or in groups of sixty; dates and moments must be of the calendar.
-/

namespace ToolServer.Yaml

open Decimal (Double natText Unreadable readInt readReal? ofDigits)
open Document (Scalar Date Moment daysIn spanText quotedText)
open Text (lower cut)

def truthValues : List (String × Bool) := [
  ("yes", true), ("no", false), ("true", true), ("false", false), ("on", true), ("off", false)]

def dropLines (s : List Char) : List Char := s.filter (· != '_')

def isNegativeSign : List Char → Bool
  | '-' :: _ => true
  | _ => false

/-- An integer of a base, or why it is none. -/
def integerIn (base : Nat) (s : List Char) : Except Refusal Int :=
  match readInt base s with
  | .ok n => .ok n
  | .error .notANumber =>
    .error (.content ("invalid literal for int() with base " ++ natText base ++ ": " ++
      quotedText (String.ofList s)))
  | .error (.tooManyDigits count) =>
    .error (.content (Decimal.tooManyDigitsMessage count))

/-- Integers in groups of sixty, most significant first. -/
def inSixties (parts : List Int) : Int := parts.foldl (fun n d => n * 60 + d) 0

def magnitude (s : List Char) : Except Refusal Int :=
  match s with
  | [] => .error (.other .outOfRange)
  | ['0'] => .ok 0
  | '0' :: 'b' :: rest => integerIn 2 rest
  | '0' :: 'x' :: rest => integerIn 16 rest
  | '0' :: _ => integerIn 8 s
  | _ =>
    if s.contains ':' then do return inSixties (← (cut ':' s).mapM (integerIn 10))
    else integerIn 10 s

def integer (text : String) : Except Refusal Scalar := do
  let s := dropLines text.toList
  if s.isEmpty then throw (.other .outOfRange)
  let n ← magnitude (dropSign s)
  return .int (if isNegativeSign s then -n else n)

def realOf (s : List Char) : Except Refusal Double :=
  match readReal? s with
  | some x => .ok x
  | none => .error (.content ("could not convert string to float: " ++ quotedText (String.ofList s)))

/-- Numbers in groups of sixty, added from the least significant on in double precision. The weight of a
group is exact until it is used, and must be a finite number then. -/
def realInSixties (parts : List Double) : Except Refusal Double := do
  let step (acc : Float × Nat) (x : Double) : Except Refusal (Float × Nat) :=
    let weight := Double.ofDecimal false acc.2 0
    if weight.isInfinite then .error (.other .overflow)
    else .ok (acc.1 + Float.ofBits x.bits * Float.ofBits weight.bits, acc.2 * 60)
  let (sum, _) ← parts.reverse.foldlM step (0, 1)
  return ⟨sum.toBits⟩

def negated (x : Double) : Double := ⟨x.bits ^^^ 0x8000000000000000⟩

def real (text : String) : Except Refusal Scalar := do
  let s := (lower (String.ofList (dropLines text.toList))).toList
  if s.isEmpty then throw (.other .outOfRange)
  let body := dropSign s
  let x ← if body = ".inf".toList then pure (Double.infinity false)
    else if body = ".nan".toList then pure Double.nan
    else if body.contains ':' then do realInSixties (← (cut ':' body).mapM realOf)
    else realOf body
  return .real (if isNegativeSign s && body != ".nan".toList then negated x else x)

/-- A date of the calendar, or what is wrong with it. -/
def dateOf (year month day : Nat) : Except Refusal Date :=
  if year = 0 then .error (.content "year 0 is out of range")
  else if month = 0 || 12 < month then .error (.content "month must be in 1..12")
  else if day = 0 || daysIn year month < day then .error (.content "day is out of range for month")
  else .ok ⟨year, month, day⟩

/-- Seconds east of universal time; less than a day. -/
def offsetOf (sign : Char) (hour minute : Nat) : Except Refusal Int :=
  let n : Int := (hour * 3600 + minute * 60 : Nat)
  let n := if sign = '-' then -n else n
  if n.natAbs < 86400 then .ok n
  else .error (.content ("offset must be a timedelta strictly between -timedelta(hours=24) and " ++
    "timedelta(hours=24), not " ++ spanText n ++ "."))

/-- The first six digits of a fraction, as millionths. -/
def millionths (fraction : List Char) : Nat :=
  let ds := fraction.take 6
  ofDigits (ds ++ List.replicate (6 - ds.length) '0')

def timestamp (text : String) : Except Refusal Scalar :=
  match stamp? (dropLastBreak text.toList) with
  | none => .error (.other .noMembers)
  | some stamp => do
    let year := ofDigits stamp.year
    let month := ofDigits stamp.month
    let day := ofDigits stamp.day
    match stamp.clock with
    | none => return .date (← dateOf year month day)
    | some (hour, minute, second, fraction) =>
      let offset ← match stamp.zone with
        | none => pure none
        | some none => pure (some 0)
        | some (some (sign, hour, minute)) =>
          pure (some (← offsetOf sign (ofDigits hour) (ofDigits minute)))
      let date ← dateOf year month day
      let hour := ofDigits hour
      let minute := ofDigits minute
      let second := ofDigits second
      if 23 < hour then throw (.content "hour must be in 0..23")
      if 59 < minute then throw (.content "minute must be in 0..59")
      if 59 < second then throw (.content "second must be in 0..59")
      return .moment ⟨date, hour, minute, second, millionths fraction, offset⟩

def binary (text : String) : Except Refusal Scalar :=
  let s := text.toList
  if s.all (·.toNat < 0x80) then
    match Text.ofBase64? s with
    | some bytes => .ok (.bytes bytes)
    | none => .error .notYaml
  else .error .notYaml

/-- The value of a text under a tag that makes scalars. -/
def content? (tag : String) : Option (String → Except Refusal Scalar) :=
  if tag = Tag.str then some fun text => .ok (.text text)
  else if tag = Tag.null then some fun _ => .ok .null
  else if tag = Tag.bool then some fun text =>
    match truthValues.lookup (lower text) with
    | some b => .ok (.bool b)
    | none => .error (.other .noEntry)
  else if tag = Tag.int then some integer
  else if tag = Tag.float then some real
  else if tag = Tag.timestamp then some timestamp
  else if tag = Tag.binary then some binary
  else none

end ToolServer.Yaml
