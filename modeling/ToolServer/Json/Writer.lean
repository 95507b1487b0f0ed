import ToolServer.Document.Value
import ToolServer.Fault
import ToolServer.Text.Class

/-!
# Writing JSON

A value as a JSON text in ASCII, on one line or with one member a line. Characters beyond ASCII are
written as escapes of their UTF-16 units. Only null, truth values, numbers, texts, lists and maps have
a written form, and of the integers those without too many digits; a map's keys are written as texts.
-/

namespace ToolServer.Json

open Decimal (intText isWritable Double)
open Document (Value Scalar)
open Text (hexText)

def unicodeEscape (n : Nat) : List Char := '\\' :: 'u' :: hexText 4 n

/-- How one character is written inside a string. -/
def stringChar (c : Char) : List Char :=
  if c = '"' then ['\\', '"']
  else if c = '\\' then ['\\', '\\']
  else if c = '\n' then ['\\', 'n']
  else if c = '\r' then ['\\', 'r']
  else if c = '\t' then ['\\', 't']
  else if c = '\x08' then ['\\', 'b']
  else if c = '\x0c' then ['\\', 'f']
  else if 0x20 ≤ c.toNat && c.toNat < 0x7f then [c]
  else if c.toNat < 0x10000 then unicodeEscape c.toNat
  else
    unicodeEscape (0xd800 + (c.toNat - 0x10000) / 0x400) ++
      unicodeEscape (0xdc00 + (c.toNat - 0x10000) % 0x400)

def stringBody (s : List Char) : List Char := s.flatMap stringChar

/-- A text as a JSON string. -/
def quoted (s : String) : String := String.ofList ('"' :: (stringBody s.toList ++ ['"']))

def realText (x : Double) : String :=
  if x.isNan then "NaN"
  else if x.isInfinite then (if x.isNegative then "-Infinity" else "Infinity")
  else x.finiteText

/-- The written form of a scalar that stands as a value. -/
def scalarText : Scalar → Except Fault String
  | .null => .ok "null"
  | .bool b => .ok (if b then "true" else "false")
  | .int n => if isWritable n then .ok (intText n) else .error .badContent
  | .real x => .ok (realText x)
  | .text s => .ok (quoted s)
  | .date _ | .moment _ | .bytes _ => .error .unsupported

/-- The written form of a key. -/
def keyText : Scalar → Except Fault String
  | .text s => .ok (quoted s)
  | k => do return quoted (← scalarText k)

/-- How the members of a list or map are laid out: on one line, or a line each at a depth. -/
inductive Layout
  | line
  | indented (depth : Nat)

def Layout.inner : Layout → Layout
  | line => line
  | indented depth => indented (depth + 1)

def margin (depth : Nat) : String := "\n" ++ String.ofList (List.replicate (2 * depth) ' ')

/-- Brackets around members. -/
def Layout.enclose (layout : Layout) (opening closing : String) (members : List String) : String :=
  if members.isEmpty then opening ++ closing
  else match layout with
    | line => opening ++ ", ".intercalate members ++ closing
    | indented depth =>
      opening ++ margin (depth + 1) ++ ("," ++ margin (depth + 1)).intercalate members ++
        margin depth ++ closing

mutual
def valueText (layout : Layout) : Value → Except Fault String
  | .scalar s => scalarText s
  | .list items => do return layout.enclose "[" "]" (← itemTexts layout.inner items)
  | .map entries => do return layout.enclose "\x7b" "\x7d" (← memberTexts layout.inner entries)
  | .pair a b => do
    let x ← valueText layout.inner a
    let y ← valueText layout.inner b
    return layout.enclose "[" "]" [x, y]
  | .set _ => .error .unsupported
def itemTexts (layout : Layout) : List Value → Except Fault (List String)
  | [] => .ok []
  | x :: xs => do
    let text ← valueText layout x
    return text :: (← itemTexts layout xs)
def memberTexts (layout : Layout) : List (Scalar × Value) → Except Fault (List String)
  | [] => .ok []
  | (k, v) :: rest => do
    let key ← keyText k
    let text ← valueText layout v
    return (key ++ ": " ++ text) :: (← memberTexts layout rest)
end

/-- A value on one line. -/
def write (v : Value) : Except Fault String := valueText .line v

/-- A value with one member a line, two spaces a level. -/
def writeIndented (v : Value) : Except Fault String := valueText (.indented 0) v

end ToolServer.Json
