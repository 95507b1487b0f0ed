import ToolServer.Fault
import ToolServer.Text.Piece
import ToolServer.Toml.Number
import ToolServer.Toml.Table
import ToolServer.Toml.Text

/-!
# Reading TOML

A text as the tables that its statements build, line by line: a header opens a table, and a key and a
value add an entry to the table that is open.
-/

namespace ToolServer.Toml

inductive Refusal
  | notToml
  /-- A part of good form that has no value. -/
  | fault (f : Fault)
deriving DecidableEq, Repr

def require {α : Type} : Option α → Except Refusal α
  | some a => .ok a
  | none => .error .notToml

/-- A comment runs to the end of the line. -/
def comment? : List Char → Option (List Char)
  | '#' :: rest =>
    if (rest.takeWhile (· != '\n')).any isControl then none else some (rest.dropWhile (· != '\n'))
  | text => some text

/-- Spaces, lines and comments between the items of an array. -/
def skipLines? : Nat → List Char → Option (List Char)
  | 0, _ => none
  | fuel + 1, text =>
    match text.dropWhile isSpaceOrLine with
    | '#' :: rest => do skipLines? fuel (← comment? ('#' :: rest))
    | rest => some rest

/-- A date, a time, a number or a word. -/
def readPlain (text : List Char) : Except Refusal (Entry × List Char) :=
  match date? text with
  | some rest => do return (.scalar, ← require rest)
  | none =>
    match clock? text with
    | some rest => .ok (.scalar, rest)
    | none =>
      match number? text with
      | some rest =>
        if wholeLength text rest > Decimal.integerLimit then .error (.fault .badContent)
        else .ok (.scalar, rest)
      | none => do return (.scalar, ← require (word? text))

mutual
def readValue : Nat → List Char → Except Refusal (Entry × List Char)
  | 0, _ => .error .notToml
  | fuel + 1, text =>
    match quoted? text with
    | some read => do
      let (s, rest) ← require read
      return (.text (String.ofList s), rest)
    | none =>
      match text with
      | '[' :: rest => readItems fuel rest
      | '{' :: rest =>
        match skipSpace rest with
        | '}' :: rest => .ok (.closed, rest)
        | rest => readMembers fuel [] rest
      | text => readPlain text
/-- The items of an array, up to its closing bracket. -/
def readItems : Nat → List Char → Except Refusal (Entry × List Char)
  | 0, _ => .error .notToml
  | fuel + 1, text => do
    match ← require (skipLines? (text.length + 1) text) with
    | ']' :: rest => return (.closed, rest)
    | text =>
      let (_, rest) ← readValue fuel text
      match ← require (skipLines? (rest.length + 1) rest) with
      | ']' :: rest => return (.closed, rest)
      | ',' :: rest => readItems fuel rest
      | _ => throw .notToml
/-- The entries of a table on one line, up to its closing brace. -/
def readMembers : Nat → Entries → List Char → Except Refusal (Entry × List Char)
  | 0, _, _ => .error .notToml
  | fuel + 1, entries, text => do
    let (key, value, rest) ← readPair fuel text
    let entries ← require (addUnder? 0 value key entries)
    match skipSpace rest with
    | '}' :: rest => return (.closed, rest)
    | ',' :: rest => readMembers fuel entries (skipSpace rest)
    | _ => throw .notToml
/-- A key and its value. -/
def readPair : Nat → List Char → Except Refusal (List String × Entry × List Char)
  | 0, _ => .error .notToml
  | fuel + 1, text => do
    match ← require (key? (text.length + 1) text) with
    | (key, '=' :: rest) =>
      let (value, rest) ← readValue fuel (skipSpace rest)
      return (key, value, rest)
    | _ => throw .notToml
end

/-- What has been read: the tables, and the header whose table is open. -/
structure Reading where
  entries : Entries := []
  header : List String := []
  section_ : Nat := 1

namespace Reading

/-- A header, from after its opening brackets. -/
def readHeader (r : Reading) (build : List String → Entries → Option Entries) (close text : List Char) :
    Except Refusal (Reading × List Char) := do
  let (key, rest) ← require (key? (text.length + 1) (skipSpace text))
  let entries ← require (build key r.entries)
  if close.isPrefixOf rest then
    return (⟨entries, key, r.section_ + 1⟩, rest.drop close.length)
  else throw .notToml

/-- A statement that is not blank. -/
def readStatement (r : Reading) (text : List Char) : Except Refusal (Reading × List Char) :=
  match text with
  | '[' :: '[' :: rest => r.readHeader appendTable? [']', ']'] rest
  | '[' :: rest => r.readHeader openTable? [']'] rest
  | '#' :: rest => .ok (r, '#' :: rest)
  | text => do
    if (text.head?.map isKeyStart).getD false then
      let (key, value, rest) ← readPair (2 * text.length + 2) text
      let entries ← require (within? (addUnder? r.section_ value key) r.header r.entries)
      return ({ r with entries }, rest)
    else throw .notToml

def readLines (r : Reading) : Nat → List Char → Except Refusal Entries
  | 0, _ => .error .notToml
  | fuel + 1, text =>
    match skipSpace text with
    | [] => .ok r.entries
    | '\n' :: rest => readLines r fuel rest
    | text => do
      let (r, rest) ← r.readStatement text
      match ← require (comment? (skipSpace rest)) with
      | [] => return r.entries
      | '\n' :: rest => readLines r fuel rest
      | _ => throw .notToml

end Reading

/-- Read a TOML text. -/
def read (text : String) : Except Refusal Entries :=
  let text := Text.replaceAll ['\r', '\n'] ['\n'] text.toList
  Reading.readLines {} (text.length + 1) text

end ToolServer.Toml
