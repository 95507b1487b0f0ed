import ToolServer.Decimal.Digits

/-!
# What a JSON text can be refused for

Each cause is found at a position of the text; its message names line, column and position.
-/

namespace ToolServer.Json

open Decimal (natText)

inductive Cause
  | value | name | colon | comma
  | unterminated | control | escape | unicodeEscape
  | extra | mark
deriving DecidableEq, Repr

inductive Refusal
  /-- Not a JSON text, at a position counted in characters. -/
  | notJson (cause : Cause) (position : Nat)
  /-- An integer with more digits than are read. -/
  | tooManyDigits (count : Nat)
  /-- An escape of half a character, without the other half. A text of characters cannot hold it. -/
  | halfCharacter
deriving DecidableEq, Repr

def Cause.message : Cause → String
  | value => "Expecting value"
  | name => "Expecting property name enclosed in double quotes"
  | colon => "Expecting ':' delimiter"
  | comma => "Expecting ',' delimiter"
  | unterminated => "Unterminated string starting at"
  | control => "Invalid control character at"
  | escape => "Invalid \\escape"
  | unicodeEscape => "Invalid \\uXXXX escape"
  | extra => "Extra data"
  | mark => "Unexpected UTF-8 BOM (decode using utf-8-sig)"

/-- The line of a position, counted from one. -/
def lineAt (text : List Char) (position : Nat) : Nat := (text.take position).count '\n' + 1

/-- The column of a position, counted from one. -/
def columnAt (text : List Char) (position : Nat) : Nat :=
  ((text.take position).reverse.takeWhile (· != '\n')).length + 1

def placeText (text : List Char) (position : Nat) : String :=
  "line " ++ natText (lineAt text position) ++ " column " ++ natText (columnAt text position) ++
    " (char " ++ natText position ++ ")"

def Cause.messageAt (text : List Char) (position : Nat) (cause : Cause) : String :=
  cause.message ++ ": " ++ placeText text position

end ToolServer.Json
