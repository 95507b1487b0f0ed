import ToolServer.Command.Stage
import ToolServer.Emit.Validity

/-!
# Writing files

The files of a command are written one after the other, each after the directories that it stands in. The
first fault ends the writing.
-/

namespace ToolServer.Command

open Decimal (natText)

/-- The files that a command has to write, and how many tools they offer. -/
structure Writing where
  output : Path
  files : List Emit.File
  tools : Nat

/-- What writing takes; each step gives its fault, if any. -/
structure Writer (m : Type → Type) where
  look : String → m Node
  tell : Event → m Unit
  makeFolder : String → m (Option DiskFault)
  write : String → String → m (Option DiskFault)

namespace Writer

variable {m : Type → Type} [Monad m] (w : Writer m)

/-- Whether a directory is at a path after a fault was met there. -/
def unlessFolder (path : String) (f : DiskFault) : m (Option DiskFault) := do
  match ← w.look path with
  | .folder => return none
  | _ => return some f

/-- Make a directory, which may be there. -/
def makeLast (path : String) : m (Option DiskFault) := do
  match ← w.makeFolder path with
  | none => return none
  | some .notFound => return some .notFound
  | some f => w.unlessFolder path f

/-- Make a directory and those above it; so many levels may be missing. -/
def makeFolders : Nat → Path → m (Option DiskFault)
  | 0, p => w.makeLast p.text
  | levels + 1, p => do
    match ← w.makeFolder p.text with
    | none => return none
    | some .notFound =>
      if p.parent = p then return some .notFound
      match ← makeFolders levels p.parent with
      | none => w.makeLast p.text
      | some f => return some f
    | some f => w.unlessFolder p.text f

/-- Write one file below a directory. -/
def writeFile (output : Path) (file : Emit.File) : m (Option DiskFault) := do
  let path := output.below file.1
  match ← w.makeFolders path.parts.length path.parent with
  | some f => return some f
  | none =>
    match ← w.write path.text file.2 with
    | some f => return some f
    | none =>
      w.tell (.out ("  Created " ++ path.text))
      return none

def writeFiles (output : Path) : List Emit.File → m (Option DiskFault)
  | [] => return none
  | file :: files => do
    match ← w.writeFile output file with
    | some f => return some f
    | none => writeFiles output files

/-- Write all files of a command. -/
def carryOut (job : Writing) : m Ending := do
  let made ← w.makeFolders job.output.parts.length job.output
  let written ← match made with
    | some f => pure (some f)
    | none => w.writeFiles job.output job.files
  match written with
  | some f => return .crash (.disk f)
  | none =>
    w.tell (.out ("Generated " ++ natText job.files.length ++ " files in " ++ job.output.text ++ " (" ++
      natText job.tools ++ " tools)"))
    return .exit 0

end Writer

end ToolServer.Command
