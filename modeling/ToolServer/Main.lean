import Std.Time.Zoned
import ToolServer.Command.Run

/-!
# The program

Commands on real files: what a command asks for is read from disk, what it tells is printed at once, and
what it decides to write is written.
-/

namespace ToolServer.Command

/-- A number with two digits. -/
def twoDigits (n : Nat) : String := String.ofList (Decimal.padded 2 n)

def clockText : IO String := do
  let t ← Std.Time.PlainTime.now
  return ":".intercalate ([t.hour.val, t.minute.val, t.second.val].map fun n => twoDigits n.toNat)

/-- Milliseconds as seconds with two places. -/
def durationText (ms : Nat) : String :=
  let hundredths := (ms + 5) / 10
  Decimal.natText (hundredths / 100) ++ "." ++ twoDigits (hundredths % 100)

/-- Print what a command tells. The stage that began last is the one that ends. -/
def printEvent (began : IO.Ref Nat) : Event → IO Unit
  | .out line => do
    let out ← IO.getStdout
    out.putStrLn line
  | .err line => do
    let err ← IO.getStderr
    err.putStrLn line
  | .log line => do
    let now ← IO.monoMsNow
    if let .stage _ .begun := line then began.set now
    let err ← IO.getStderr
    err.putStrLn (line.text (← clockText) (durationText (now - (← began.get))))

/-- The code of a directory that is opened as a file. -/
def directoryCode : UInt32 := 21

def diskFault : IO.Error → DiskFault
  | .noFileOrDirectory .. => .notFound
  | .alreadyExists .. => .exists_
  | .inappropriateType _ code _ => if code = directoryCode then .isDirectory else .notDirectory
  | e => .other (toString e)

def lookAtDisk (path : String) : IO Node := do
  match ← (IO.FS.readFile path).toBaseIO with
  | .ok content => return .file content
  | .error e =>
    match diskFault e with
    | .isDirectory => return .folder
    | _ => return .missing

def attempt (action : IO Unit) : IO (Option DiskFault) := do
  match ← action.toBaseIO with
  | .ok _ => return none
  | .error e => return some (diskFault e)

def viewer (began : IO.Ref Nat) : Viewer IO where
  look := lookAtDisk
  tell := printEvent began

def writer (began : IO.Ref Nat) : Writer IO where
  look := lookAtDisk
  tell := printEvent began
  makeFolder path := attempt (IO.FS.createDir path)
  write path content := attempt (IO.FS.writeFile path content)

/-- What is said of a command that ended in a crash. -/
def crashText : Crash → String
  | .fault _ => "a part of the document does not have the form that is needed"
  | .disk .notFound => "no such file or directory"
  | .disk .notDirectory => "not a directory"
  | .disk .isDirectory => "is a directory"
  | .disk .exists_ => "file exists"
  | .disk (.other text) => text

def runOnDisk (words : List String) : IO UInt32 := do
  let began ← IO.mkRef 0
  let ending ← match ← (viewer began).decide words with
    | .ended ending => pure ending
    | .write job => (writer began).carryOut job
  if let .crash c := ending then
    let err ← IO.getStderr
    err.putStrLn ("Error: " ++ crashText c)
  return ending.code.toUInt32

end ToolServer.Command

def main (words : List String) : IO UInt32 := ToolServer.Command.runOnDisk words
