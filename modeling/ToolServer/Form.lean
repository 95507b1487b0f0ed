import ToolServer.Decimal.Written
import ToolServer.Document.Value

/-!
# Records as values

Records that are kept as values are read part by part. A part has one or more names, may have a value
for when it is not there, and is read by a form of its own; a record with a part that does not fit its
form is no record. A part that is absent is not written.
-/

namespace ToolServer.Form

open Document

/-- The part under the first of its names that is there. -/
def part? (names : List String) (entries : Entries) : Option Value :=
  names.findSome? (Entries.get? entries ·)

variable {α : Type}

/-- A part that must be there. -/
def field (names : List String) (f : Value → Option α) (entries : Entries) : Option α :=
  (part? names entries).bind f

/-- A part that may be missing. -/
def fieldOr (names : List String) (default : α) (f : Value → Option α) (entries : Entries) : Option α :=
  match part? names entries with
  | some v => f v
  | none => some default

/-- A part that may be missing or null. -/
def optional (names : List String) (f : Value → Option α) (entries : Entries) : Option (Option α) :=
  match part? names entries with
  | none | some .null => some none
  | some v => (f v).map some

def text : Value → Option String
  | .text s => some s
  | _ => none

def yesWords : List String := ["1", "t", "y", "on", "yes", "true"]
def noWords : List String := ["0", "f", "n", "no", "off", "false"]

def asciiLower (s : String) : String :=
  String.ofList (s.toList.map fun c => if Text.isAsciiUpper c then Char.ofNat (c.toNat + 32) else c)

/-- A truth value, or a number or word for one. -/
def flag : Value → Option Bool
  | .scalar (.bool b) => some b
  | .scalar (.int n) => if n = 0 then some false else if n = 1 then some true else none
  | .scalar (.real x) =>
    if x.equalsInt 0 then some false else if x.equalsInt 1 then some true else none
  | .scalar (.text s) =>
    if yesWords.contains (asciiLower s) then some true
    else if noWords.contains (asciiLower s) then some false
    else none
  | _ => none

/-- The number that a text writes in ASCII. It is whole unless its fraction has a digit other than zero. -/
def numberIn? (s : List Char) : Option Scalar :=
  let cs := Decimal.trimAround s
  let (front, back) := cs.span (· != '.')
  if cs.all (·.toNat < 0x80) then
    match Decimal.readInt 10 (if (back.drop 1).all (· == '0') then front else cs) with
    | .ok n => some (.int n)
    | .error _ => (Decimal.readReal? cs).map .real
  else none

/-- A number; a truth value counts as zero or one, and a text as the number that it writes. -/
def number : Value → Option Scalar
  | .scalar (.int n) => some (.int n)
  | .scalar (.real x) => some (.real x)
  | .scalar (.bool b) => some (.int (if b then 1 else 0))
  | .scalar (.text s) => numberIn? s.toList
  | _ => none

def list (f : Value → Option α) : Value → Option (List α)
  | .list items => items.mapM f
  | _ => none

/-- A map whose keys are texts, as it is. -/
def plainMap : Value → Option Entries
  | .map entries => if entries.all fun e => (text (.scalar e.1)).isSome then some entries else none
  | _ => none

/-- A map from texts to records. -/
def map (f : Value → Option α) (v : Value) : Option (List (String × α)) := do
  (← plainMap v).mapM fun e => do return (← text (.scalar e.1), ← f e.2)

def record (f : Entries → Option α) : Value → Option α
  | .map entries => f entries
  | _ => none

/-- A part that is always written. -/
def part (name : String) (v : Value) : List (Scalar × Value) := [(.text name, v)]

/-- A part that is written when it is there. -/
def partIf (name : String) (f : α → Value) : Option α → List (Scalar × Value)
  | some a => part name (f a)
  | none => []

def textList (l : List String) : Value := .list (l.map .text)

end ToolServer.Form
