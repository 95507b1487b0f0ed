import ToolServer.Command.Check
import ToolServer.Command.Write
import ToolServer.Diff.Form
import ToolServer.Json.Writer
import ToolServer.Tool.Form

/-!
# What a command decides

The four commands, up to the point where files are written: a command ends, or it has files to write.
-/

namespace ToolServer.Command

open Api
open Decimal (natText)

/-- What a command comes to without writing. -/
inductive Decision
  | ended (e : Ending)
  | write (w : Writing)

namespace Viewer

variable {m : Type → Type} [Monad m] (v : Viewer m)

/-- The description in a file, with its warnings told. -/
def parseFile (verbose : Bool) (path : Path) : Act m Description := do
  let text ← v.readFile path.text
  let work (_ : Unit) : Work Fault ParseResult :=
    let r := parseWith text
    ⟨r.1, fun _ => parseNotes r⟩
  match ← v.stage verbose "parse" crashed work with
  | .parsed d warnings =>
    warnings.forM fun w => v.err ("warning: " ++ w)
    return d
  | .refused place message =>
    throw (.failure ("Failed to parse " ++ path.text ++ ":\n  " ++
      (if place = "" then "<root>" else place) ++ ": " ++ message))

def mapDescription (verbose : Bool) (d : Description) : Act m Config :=
  v.stage verbose "map" crashed fun _ => ⟨Config.ofDescription d, fun _ => mapNotes d⟩

/-- A text with spaces behind it up to a width. -/
def padded (width : Nat) (s : String) : String := s ++ spaces (width - s.length)

def printJson (x : Document.Value) : Act m Unit := do
  match Json.writeIndented x with
  | .ok text => v.out text
  | .error f => throw (crashed f)

def configLines (d : Description) (c : Config) : List String :=
  [d.title ++ " " ++ d.version, "Base URL: " ++ d.baseUrl,
    "Found " ++ natText d.endpoints.length ++ " endpoints, " ++ natText c.tools.length ++ " tools."] ++
  (c.tools.map fun t => "  " ++ padded 7 t.handler.method ++ " " ++ t.handler.path ++ " -> " ++ t.name) ++
  (if c.envVars.isEmpty then [] else "Environment variables:" :: c.envVars.map ("  " ++ ·.name))

def parseCommand (verbose : Bool) (g : Given) : Act m Decision := do
  let d ← v.parseFile verbose (.ofText (g.words.headD ""))
  let c ← v.mapDescription verbose d
  if g.has .json then v.printJson c.toValue else (configLines d c).forM v.out
  return .ended (.exit 0)

/-- Generate the files of a tool server, and check them if asked to. -/
def generateFiles (verbose : Bool) (g : Given) (c : Config) : Act m Decision := do
  let language := (g.value? .language).getD "typescript"
  match Emit.language? language with
  | none => throw (.failure (Emit.unknownLanguage language))
  | some l =>
    let files ← v.stage verbose ("generate:" ++ language) crashed fun _ => { result := Emit.project l c }
    if g.has .check then
      let found ← v.stage verbose "validate" crashed fun _ => { result := Emit.invalidFiles files }
      if !found.isEmpty then
        let lines := (found.mergeSort fun a b => a.1 ≤ b.1).map fun (name, message) =>
          "  " ++ name ++ ": " ++ message
        throw (.failure ("Generated files failed validation:\n" ++ "\n".intercalate lines))
    return .write ⟨.ofText ((g.value? .output).getD ""), files, c.enabledTools.length⟩

def generateCommand (verbose : Bool) (g : Given) : Act m Decision := do
  let d ← v.parseFile verbose (.ofText (g.words.headD ""))
  let c ← v.mapDescription verbose d
  let c := match nonempty (g.value? .name) with
    | some name => { c with name := Naming.serverName name }
    | none => c
  let disabled := g.values .disable
  let unknown := disabled.eraseDups.filter fun n => !c.tools.any (·.name == n)
  if !unknown.isEmpty then
    v.err ("warning: unknown tools: " ++ ", ".intercalate (unknown.mergeSort (· ≤ ·)))
  v.generateFiles verbose g (Diff.disable disabled c)

/-- The two sides of the first equals sign, neither of them empty. -/
def readPair (form word : String) : Act m (String × String) :=
  match splitAttached word.toList with
  | (name, some rest) =>
    if name = "" || rest = "" then throw (.usage (some .compose) (.notPair form word)) else pure (name, rest)
  | _ => throw (.usage (some .compose) (.notPair form word))

/-- The source that a word names, with the tools of it to turn off. -/
def readSource (disabled : List (String × String)) (word : String) : Act m Composition.Source := do
  let (name, path) ← readPair "NAME=PATH" word
  let place := Path.text (.ofText path)
  match ← v.lookAt place with
  | .file _ =>
    return {
      name
      text := ← v.readFile place
      namePrefix := none
      disabledTools := (disabled.filter (·.1 = name)).map (·.2) }
  | _ => throw (.usage (some .compose) (.noSuchFile path))

def composeCommand (verbose : Bool) (g : Given) : Act m Decision := do
  let disabled ← (g.values .disable).mapM (readPair "API=TOOL")
  let sources ← g.words.mapM (v.readSource disabled)
  let r ← v.stage verbose "compose" crashed fun _ =>
    ⟨Composition.compose sources (g.value? .name) (g.value? .description), fun _ => composeNotes sources⟩
  r.warnings.forM fun w => v.err ("warning: " ++ w)
  r.problems.forM fun p => v.err ("error: [" ++ p.source ++ "] " ++ p.message)
  if r.composed.isEmpty then throw (.failure "No APIs could be composed.")
  v.out ("Composed " ++ ", ".intercalate r.composed ++ " into " ++ r.config.name)
  v.generateFiles verbose g r.config

def shownValue (s : Option String) : String := (nonempty s).getD "-"

def changeLines (c : Diff.Change) : List String :=
  ("  [" ++ c.severity.name ++ "] " ++ c.text) :: ((c.details.getD []).map fun d =>
    "      " ++ d.field ++ ": " ++ shownValue d.oldValue ++ " -> " ++ shownValue d.newValue)

def diffLines (d : Diff.VersionDiff) : List String :=
  d.summary :: d.changes.flatMap changeLines ++
    (if d.notes.isEmpty then [] else "Migration notes:" :: d.notes.map ("  - " ++ ·))

def compareStop : Diff.CompareFault → Stop
  | .fault f => crashed f
  | f => .failure f.message

def diffCommand (verbose : Bool) (g : Given) : Act m Decision := do
  let old ← v.readFile (Path.text (.ofText (g.words.headD "")))
  let new ← v.readFile (Path.text (.ofText ((g.words.drop 1).headD "")))
  let disabled := g.values .disable
  let r ← v.stage verbose "diff" compareStop fun _ =>
    ⟨Diff.compareTexts old new disabled, fun _ => compareNotes old new disabled⟩
  if g.has .json then v.printJson r.diff.toValue else (diffLines r.diff).forM v.out
  return .ended (.exit (if r.diff.isCompatible then 0 else 1))

def runVerb (verbose : Bool) (verb : Verb) (g : Given) : Act m Decision :=
  match verb with
  | .compose => v.composeCommand verbose g
  | .diff => v.diffCommand verbose g
  | .generate => v.generateCommand verbose g
  | .parse => v.parseCommand verbose g

/-- A usage fault ends the command. -/
def orUsage {α : Type} (verb : Option Verb) : Except UsageFault α → Act m α
  | .ok a => pure a
  | .error f => throw (.usage verb f)

/-- The command that a word names. A word that looks like an option is read as one first. -/
def verbOf (words : List String) (word : String) : Act m Verb := do
  match Verb.ofName? word with
  | some verb => return verb
  | none =>
    if ['-'].isPrefixOf word.toList then
      let g ← orUsage none (readCommon words)
      if g.has .help then throw (.help none)
    throw (.usage none (.noSuchCommand word))

def runWords (words : List String) : Act m Decision := do
  let common ← orUsage none (readCommon words)
  if common.has .help then throw (.help none)
  match common.words with
  | [] => throw (.usage none .noCommand)
  | word :: rest =>
    let verb ← verbOf common.words word
    let g ← orUsage (some verb) (verb.read rest)
    if g.has .help then throw (.help (some verb))
    v.check verb g
    v.runVerb (common.has .verbose) verb g

/-- Decide what a command line does. -/
def decide (words : List String) : m Decision := do
  if words.isEmpty then
    (helpPage none).forM fun line => v.tell (.err line)
    return .ended (.exit 2)
  match ← (v.runWords words).run with
  | .ok decision => return decision
  | .error (.usage verb f) =>
    (usageText verb f).forM fun line => v.tell (.err line)
    return .ended (.exit 2)
  | .error (.help verb) =>
    (helpPage verb).forM fun line => v.tell (.out line)
    return .ended (.exit 0)
  | .error (.failure message) =>
    v.tell (.err ("Error: " ++ message))
    return .ended (.exit 1)
  | .error (.ended e) => return .ended e

end Viewer

end ToolServer.Command
