import ToolServer.Command.Path
import ToolServer.Ordered

/-!
# File trees

Files and directories below a working directory, which is also where absolute paths start. A path goes
through directories only; two dots lead to the directory above. A file is not written at once: a fault may
leave a beginning of it.
-/

namespace ToolServer.Command

inductive DiskFault
  | notFound
  | notDirectory
  | isDirectory
  | exists_
  /-- A fault of another kind, with its text. -/
  | other (text : String)
deriving DecidableEq, Repr

/-- What is at a path. -/
inductive Node
  | missing
  | folder
  | file (content : String)
deriving DecidableEq, Repr

/-- What stands in the way of writing to a place: the fault that ends it, and how many characters are written
before, if the file is opened at all. -/
structure Obstacle where
  fault : DiskFault
  opened : Option Nat
deriving Repr

/-- Files by path, the directories that were made, and what stands in the way. -/
structure Disk where
  files : List (List String × String)
  folders : List (List String)
  obstacles : List (List String × Obstacle)
deriving Repr

namespace Disk

def ofFiles (files : List (String × String)) : Disk where
  files := Ordered.ofPairs (files.map fun (name, content) => ((Path.ofText name).parts, content))
  folders := []
  obstacles := []

/-- What is at a path whose directories are there. -/
def nodeAt (d : Disk) (parts : List String) : Node :=
  match Ordered.get? parts d.files with
  | some content => .file content
  | none =>
    if parts.isEmpty || d.folders.contains parts || d.files.any (parts.isPrefixOf ·.1) then .folder
    else .missing

/-- Follow parts from a directory. -/
def walk (d : Disk) (at_ : List String) : List String → Except DiskFault (List String)
  | [] => .ok at_
  | part :: rest =>
    match d.nodeAt at_ with
    | .missing => .error .notFound
    | .file _ => .error .notDirectory
    | .folder =>
      if part = "" || part = "." then d.walk at_ rest
      else if part = ".." then d.walk at_.dropLast rest
      else d.walk (at_ ++ [part]) rest

/-- The place that a path leads to. -/
def place (d : Disk) (path : String) : Except DiskFault (List String) :=
  if path = "" then .error .notFound else d.walk [] ((Text.cut '/' path.toList).map String.ofList)

def look (d : Disk) (path : String) : Node :=
  match d.place path with
  | .ok parts => d.nodeAt parts
  | .error _ => .missing

/-- Make a directory where nothing is; gives the fault, if any. -/
def makeFolder (d : Disk) (path : String) : Option DiskFault × Disk :=
  match d.place path with
  | .error f => (some f, d)
  | .ok parts =>
    match d.nodeAt parts, d.obstacles.lookup parts with
    | .missing, none => (none, { d with folders := parts :: d.folders })
    | .missing, some o => (some o.fault, d)
    | _, _ => (some .exists_, d)

def put (d : Disk) (parts : List String) (content : String) : Disk :=
  { d with files := Ordered.put parts content d.files }

/-- Write a file where no directory is; gives the fault, if any. A file that was opened before the fault holds
what was written until then. -/
def write (d : Disk) (path content : String) : Option DiskFault × Disk :=
  match d.place path with
  | .error f => (some f, d)
  | .ok parts =>
    match d.nodeAt parts, d.obstacles.lookup parts with
    | .folder, _ => (some .isDirectory, d)
    | _, none => (none, d.put parts content)
    | _, some ⟨f, none⟩ => (some f, d)
    | _, some ⟨f, some n⟩ => (some f, d.put parts (String.ofList (content.toList.take n)))

/-- The files that another tree does not have, by path. -/
def newFiles (d before : Disk) : List (String × String) :=
  let new := d.files.filter fun (parts, _) => !Ordered.contains parts before.files
  (new.map fun (parts, content) => ("/".intercalate parts, content)).mergeSort fun a b => a.1 ≤ b.1

end Disk

end ToolServer.Command
