import ToolServer.Command.Options
import ToolServer.Document.Display
import ToolServer.Text.Likeness
import ToolServer.Text.Piece

/-!
# Usage

What can be wrong with the words of a command line and how it is told, and the pages of help.
-/

namespace ToolServer.Command

open Document (quotedText)

inductive UsageFault
  | noSuchOption (name : String) (close : List String)
  | takesNoValue (name : String)
  | needsValue (name : String)
  | missingArgument (argument : String)
  | missingOption (option : OptionSpec)
  /-- A value that its option or argument does not take. -/
  | badValue (what reason : String)
  /-- A word that is not a pair of the given form. -/
  | notPair (form word : String)
  | noSuchFile (path : String)
  | unexpected (words : List String)
  | noSuchCommand (name : String)
  | noCommand

/-- The spellings of an option as they are named in messages. -/
def OptionSpec.hint (o : OptionSpec) : String :=
  " / ".intercalate (o.spellings.map fun s => "'" ++ s ++ "'")

namespace UsageFault

def suggestion (close : List String) : String :=
  match close with
  | [] => ""
  | [one] => " Did you mean " ++ one ++ "?"
  | several => " (Possible options: " ++ ", ".intercalate several ++ ")"

def message : UsageFault → String
  | noSuchOption name close => "No such option: " ++ name ++ suggestion close
  | takesNoValue name => "Option " ++ quotedText name ++ " does not take a value."
  | needsValue name => "Option " ++ quotedText name ++ " requires an argument."
  | missingArgument argument => "Missing argument '" ++ argument ++ "'."
  | missingOption option => "Missing option " ++ option.hint ++ "."
  | badValue what reason => "Invalid value for " ++ what ++ ": " ++ reason
  | notPair form word => "Invalid value: expected " ++ form ++ ", got " ++ quotedText word
  | noSuchFile path => "Invalid value for APIS: no such file: " ++ path
  | unexpected words =>
    "Got unexpected extra argument" ++ (if words.length = 1 then "" else "s") ++
      " (" ++ " ".intercalate words ++ ")"
  | noSuchCommand name => "No such command " ++ quotedText name ++ "."
  | noCommand => "Missing command."

end UsageFault

/-- The program with or without a command. -/
def commandPath (verb : Option Verb) : String :=
  programName ++ ((verb.map fun v => " " ++ v.name).getD "")

def usageLine (verb : Option Verb) : String :=
  let rest := match verb with
    | some v => v.arguments
    | none => ["COMMAND", "[ARGS]..."]
  "Usage: " ++ " ".intercalate (commandPath verb :: "[OPTIONS]" :: rest)

/-- What is shown when the words of a command line are wrong. -/
def usageText (verb : Option Verb) (f : UsageFault) : List String := [
  usageLine verb, "Try '" ++ commandPath verb ++ " --help' for help.", "", "Error: " ++ f.message]

/-! Pages of help. -/

def pageWidth : Nat := 80

/-- The widest first column. -/
def widestColumn : Nat := 30

/-- A text as lines of words, as many on each as fit. -/
def wrap (width : Nat) (text : String) : List String :=
  let add (lines : List (List Char)) (word : List Char) : List (List Char) :=
    match lines with
    | [] => [word]
    | line :: done =>
      if line.length + 1 + word.length ≤ width then (line ++ ' ' :: word) :: done else word :: line :: done
  (((Text.words text.toList).foldl add []).reverse).map String.ofList

def spaces (n : Nat) : String := String.ofList (List.replicate n ' ')

/-- Two columns, the second one in lines; a first one that is too wide has a line of its own. -/
def columns (rows : List (String × String)) : List String :=
  let widest := min ((rows.map (·.1.length)).foldl max 0) widestColumn + 2
  rows.flatMap fun (first, second) =>
    let lines := wrap (pageWidth - widest - 2) second
    if first.length + 2 ≤ widest then
      match lines with
      | [] => ["  " ++ first]
      | line :: rest =>
        ("  " ++ first ++ spaces (widest - first.length) ++ line) :: rest.map (spaces (widest + 2) ++ ·)
    else ("  " ++ first) :: lines.map (spaces (widest + 2) ++ ·)

def optionRow (o : OptionSpec) : String × String :=
  (", ".intercalate o.spellings ++ ((o.value.map (" " ++ ·)).getD ""),
    o.purpose ++ if o.required then "  [required]" else "")

def paragraph (text : String) : List String := "" :: (wrap (pageWidth - 2) text).map ("  " ++ ·)

/-- The page of help of the program or of a command. -/
def helpPage (verb : Option Verb) : List String :=
  match verb with
  | some v =>
    usageLine verb :: v.explanation.flatMap paragraph ++
      "" :: "Options:" :: columns (v.options.map optionRow)
  | none =>
    usageLine none :: paragraph programSummary ++
      "" :: "Options:" :: columns (commonOptions.map optionRow) ++
      "" :: "Commands:" :: columns (Verb.all.map fun v => (v.name, v.summary))

end ToolServer.Command
