import ToolServer.Text.Class

/-!
# Texts in generated code

How a text is written inside a script's string or template, as a key or member of an object, and
inside a documentation string.
-/

namespace ToolServer.Emit

open Text

/-- How one character is written inside a script's string or template. -/
def scriptChar (c : Char) : List Char :=
  if c = '\\' || c = '\'' || c = '\x60' || c = '$' then ['\\', c]
  else if c = '\r' then ['\\', 'r']
  else if c = '\n' then ['\\', 'n']
  else [c]

def scriptText (s : String) : String := String.ofList (s.toList.flatMap scriptChar)

/-- A text as a script's string. -/
def scriptString (s : String) : String := "'" ++ scriptText s ++ "'"

def isMemberStart (c : Char) : Bool := isAsciiLetter c || c == '_' || c == '$'

def isMemberChar (c : Char) : Bool := isMemberStart c || isAsciiDigit c

/-- Whether a name is written bare: an identifier, which a line feed may follow. -/
def isBareMember (s : List Char) : Bool :=
  match s with
  | [] => false
  | c :: rest =>
    isMemberStart c &&
      (match rest.dropWhile isMemberChar with
        | [] => true
        | ['\n'] => true
        | _ => false)

/-- A name as the key of an object. -/
def memberKey (name : String) : String :=
  if isBareMember name.toList then name else scriptString name

/-- The member of an object with a name. -/
def memberAccess (object name : String) : String :=
  if isBareMember name.toList then object ++ "." ++ name
  else object ++ "[" ++ scriptString name ++ "]"

/-- A text inside a documentation string. -/
def docText (s : String) : String :=
  String.ofList (s.toList.flatMap fun c => if c = '\\' || c = '"' then ['\\', c] else [c])

end ToolServer.Emit
