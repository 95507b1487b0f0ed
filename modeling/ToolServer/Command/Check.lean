import ToolServer.Command.Stage
import ToolServer.Command.Words

/-!
# Checking what is given

Options, arguments and files that the words of a command line give, checked before the command starts.
-/

namespace ToolServer.Command.Viewer

variable {m : Type → Type} [Monad m] (v : Viewer m)

def pathFault (what kind path reason : String) : UsageFault :=
  .badValue what (kind ++ " " ++ Document.quotedText path ++ " " ++ reason)

/-- The value of an option, if its kind is checked. -/
def checkOption (o : OptionSpec) (value : String) : Act m (Option UsageFault) := do
  match o.option with
  | .language =>
    let known := Emit.languages.map (·.1)
    if known.contains value then return none
    else return some (.badValue o.hint (Document.quotedText value ++ " is not one of " ++
      ", ".intercalate (known.map Document.quotedText) ++ "."))
  | .output =>
    match ← v.lookAt value with
    | .file _ => return some (pathFault o.hint "Directory" value "is a file.")
    | _ => return none
  | _ => return none

/-- The file of an argument. -/
def checkFile (argument : String) (path : String) : Act m (Option UsageFault) := do
  let what := "'" ++ argument ++ "'"
  match ← v.lookAt path with
  | .file _ => return none
  | .folder => return some (pathFault what "File" path "is a directory.")
  | .missing => return some (pathFault what "File" path "does not exist.")

/-- The arguments in order; those of pairs are any number, but not none. -/
def checkArguments (verb : Verb) : List String → List String → Act m (Option UsageFault)
  | [], [] => return none
  | [], words => return some (.unexpected words)
  | argument :: _, [] => return some (.missingArgument argument)
  | argument :: rest, word :: words => do
    if verb = .compose then return none
    match ← v.checkFile argument word with
    | some f => return some f
    | none => checkArguments verb rest words

/-- The first fault: of the options that are given, of the arguments, of the options that are missing,
and of words that are too many. -/
def check (verb : Verb) (g : Given) : Act m Unit := do
  let fail (f : UsageFault) : Act m Unit := throw (.usage (some verb) f)
  let given := g.options.map (·.1)
  for o in given.eraseDups do
    if let some spec := verb.options.find? (·.option = o) then
      if let some f ← v.checkOption spec ((g.value? o).getD "") then fail f
  let f ← v.checkArguments verb verb.arguments g.words
  match f with
  | some (.unexpected _) | none => pure ()
  | some f => fail f
  if let some o := verb.options.find? fun o => o.required && !given.contains o.option then
    fail (.missingOption o)
  if let some f := f then fail f

end ToolServer.Command.Viewer
