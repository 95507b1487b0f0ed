import ToolServer.Command.Decide

/-!
# Commands on a file tree

What a command line does to a file tree: it decides on the tree as it is, and then writes.
-/

namespace ToolServer.Command

/-- A file tree and what has been told, last first. -/
structure World where
  disk : Disk
  events : List Event

namespace Disk

/-- Look at a file tree that does not change. -/
def viewer (d : Disk) : Viewer (StateM (List Event)) where
  look path := pure (d.look path)
  tell e := modify (e :: ·)

/-- Keep the tree that a step leaves. -/
def keep (step : Disk → Option DiskFault × Disk) : StateM World (Option DiskFault) := do
  let (fault, disk) := step (← get).disk
  modify ({ · with disk })
  return fault

def writer : Writer (StateM World) where
  look path := return (← get).disk.look path
  tell e := modify fun s => { s with events := e :: s.events }
  makeFolder path := keep (·.makeFolder path)
  write path content := keep (·.write path content)

end Disk

/-- What came of a command line. -/
structure Outcome where
  ending : Ending
  events : List Event
  disk : Disk

/-- Run a command line on a file tree. -/
def run (disk : Disk) (words : List String) : Outcome :=
  let (decision, events) := (disk.viewer.decide words).run []
  match decision with
  | .ended ending => ⟨ending, events.reverse, disk⟩
  | .write job =>
    let (ending, world) := (Disk.writer.carryOut job).run ⟨disk, events⟩
    ⟨ending, world.events.reverse, world.disk⟩

end ToolServer.Command
