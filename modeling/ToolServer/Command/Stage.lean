import ToolServer.Command.Disk
import ToolServer.Command.Log
import ToolServer.Command.Usage

/-!
# Stages of a command

What a command does before it writes: it looks at files, tells what it does, and goes through stages. It
may stop at any point.
-/

namespace ToolServer.Command

/-- Something that a command tells. -/
inductive Event
  | out (line : String)
  | err (line : String)
  | log (line : LogLine)
deriving DecidableEq, Repr

/-- How a command ends that nobody foresaw. -/
inductive Crash
  | fault (f : Fault)
  | disk (f : DiskFault)
deriving DecidableEq, Repr

inductive Ending
  | exit (code : Nat)
  | crash (c : Crash)
deriving DecidableEq, Repr

def Ending.code : Ending → Nat
  | exit code => code
  | crash _ => 1

/-- Why a command does not go on. -/
inductive Stop
  /-- The words are wrong. -/
  | usage (verb : Option Verb) (f : UsageFault)
  | help (verb : Option Verb)
  /-- The command fails with a message. -/
  | failure (message : String)
  | ended (e : Ending)

/-- What comes of the work of a stage, and the notes on it. -/
structure Work (ε α : Type) where
  result : Except ε α
  notes : Unit → List String := fun _ => []

/-- What a command can do before it writes. -/
structure Viewer (m : Type → Type) where
  look : String → m Node
  tell : Event → m Unit

variable {m : Type → Type} [Monad m]

namespace Viewer

variable (v : Viewer m)

abbrev Act (m : Type → Type) := ExceptT Stop m

def lookAt (path : String) : Act m Node := v.look path

def out (line : String) : Act m Unit := v.tell (.out line)

def err (line : String) : Act m Unit := v.tell (.err line)

/-- Log a line; most are told on request only. -/
def log (verbose : Bool) (line : LogLine) : Act m Unit := do
  if verbose || line.isError then ExceptT.lift (v.tell (.log line))

/-- Do the work of a stage, between the lines that tell of it. -/
def stage {ε α : Type} (verbose : Bool) (name : String) (stop : ε → Stop) (work : Unit → Work ε α) :
    Act m α := do
  v.log verbose (.stage name .begun)
  let w := work ()
  if verbose then (w.notes ()).forM fun n => v.log verbose (.note n)
  match w.result with
  | .ok a =>
    v.log verbose (.stage name .done)
    return a
  | .error e =>
    v.log verbose (.stage name .failed)
    throw (stop e)

/-- A fault ends the command as a crash. -/
def crashed (f : Fault) : Stop := .ended (.crash (.fault f))

/-- The text of a file, with line feeds for all line ends. -/
def readFile (path : String) : Act m String := do
  match ← v.lookAt path with
  | .file content => return String.ofList (Text.lineFeeds content.toList)
  | .folder => throw (.ended (.crash (.disk .isDirectory)))
  | .missing => throw (.ended (.crash (.disk .notFound)))

end Viewer

end ToolServer.Command
