import ToolServer.Composition
import ToolServer.Diff.Versions
import ToolServer.Document.Display

/-!
# Log lines

What a command tells while it works: where a stage begins and ends, and what was noted on the way. The
notes of a piece of work end where a fault ends the work.
-/

namespace ToolServer.Command

open Api
open Document (quotedText)
open Decimal (natText)
open Reference (Memory)

inductive Status
  | begun | done | failed
deriving DecidableEq, Repr

inductive LogLine
  | stage (name : String) (status : Status)
  | note (text : String)
deriving DecidableEq, Repr

namespace LogLine

/-- A failure is told even if nothing else is. -/
def isError : LogLine → Bool
  | stage _ .failed => true
  | _ => false

/-- A line with the time of day and the time that a stage took. -/
def text (clock duration : String) : LogLine → String
  | stage name .begun => clock ++ " [" ++ name ++ "] debug: " ++ name ++ " ..."
  | stage name .done => clock ++ " [" ++ name ++ "] debug: " ++ name ++ " done (" ++ duration ++ "s)"
  | stage name .failed => clock ++ " [" ++ name ++ "] error: " ++ name ++ " failed (" ++ duration ++ "s)"
  | note text => clock ++ " debug: " ++ text

end LogLine

/-- The notes on reading a text. -/
def parseNotes (r : Except Fault ParseResult × Memory) : List String :=
  r.2.warnings.map (·.message) ++ match r.1 with
    | .ok (.parsed d warnings) =>
      ["Parsed " ++ d.title ++ ": " ++ natText d.endpoints.length ++ " endpoints, " ++
        natText warnings.length ++ " warnings"]
    | _ => []

def deprecatedNote (e : Endpoint) : String :=
  "Skipping deprecated endpoint " ++ Text.upper e.method ++ " " ++ e.path

/-- The notes on the operations of a description, and the names of the tools as long as there is no
fault. -/
def endpointNotes (d : Description) : List Endpoint → List String × Option (List String)
  | [] => ([], some [])
  | e :: rest =>
    if e.deprecated then
      let (notes, names) := endpointNotes d rest
      (deprecatedNote e :: notes, names)
    else match toolOf d e with
      | .error _ => ([], none)
      | .ok t =>
        let (notes, names) := endpointNotes d rest
        (notes, names.map (t.name :: ·))

def renameNotes (names : List String) : List String :=
  (names.zip (Naming.distinct names)).filterMap fun (old, new) =>
    if old = new then none else some ("Renamed duplicate tool " ++ old ++ " to " ++ new)

/-- The notes on mapping a description. -/
def mapNotes (d : Description) : List String :=
  let (notes, names) := endpointNotes d d.endpoints
  notes ++ (names.map renameNotes).getD []

def skippedNote (name path message : String) : String :=
  "Skipping API " ++ name ++ ": [ParseError(path=" ++ quotedText path ++ ", message=" ++
    quotedText message ++ ")]"

/-- The notes on one source, and whether the work goes on after it. -/
def sourceNotes (s : Composition.Source) : List String × Bool :=
  let r := parseWith s.text
  match r.1 with
  | .error _ => (parseNotes r, false)
  | .ok (.refused path message) => (parseNotes r ++ [skippedNote s.name path message], true)
  | .ok (.parsed d _) => (parseNotes r ++ mapNotes d, (Config.ofDescription d).isOk)

def sourcesNotes : List Composition.Source → List String
  | [] => []
  | s :: rest =>
    let (notes, goesOn) := sourceNotes s
    notes ++ if goesOn then sourcesNotes rest else []

/-- The notes on a composition. -/
def composeNotes (sources : List Composition.Source) : List String :=
  match Composition.rejection? sources with
  | some _ => []
  | none => sourcesNotes sources

/-- The notes on a comparison: both texts are read before the first is mapped. -/
def compareNotes (old new : String) (disabled : List String) : List String :=
  let a := parseWith old
  parseNotes a ++ match a.1 with
    | .ok (.parsed a _) =>
      let b := parseWith new
      parseNotes b ++ match b.1 with
        | .ok (.parsed b _) =>
          mapNotes a ++ (if (Config.ofDescription a).isOk then mapNotes b else []) ++
            match Diff.compareTexts old new disabled with
            | .ok r => ["Version diff: " ++ r.diff.summary]
            | .error _ => []
        | _ => []
    | _ => []

end ToolServer.Command
