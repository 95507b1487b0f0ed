import ToolServer.Command.Usage

/-!
# Reading the words of a command line

Options may be given in short or long form, with their value attached or as the next word; two dashes
end them. Before the command, the first word that is no option ends them too.
-/

namespace ToolServer.Command

/-- What the words of a command line give: options with their values, in order, and other words. -/
structure Given where
  options : List (OptionName × String) := []
  words : List String := []
deriving DecidableEq, Repr

namespace Given

/-- The value of an option; the last one counts. -/
def value? (g : Given) (o : OptionName) : Option String :=
  (g.options.filter (·.1 = o)).getLast?.map (·.2)

def values (g : Given) (o : OptionName) : List String := (g.options.filter (·.1 = o)).map (·.2)

def has (g : Given) (o : OptionName) : Bool := g.options.any (·.1 = o)

end Given

/-- Options that were read, and the words left. -/
abbrev Taken := List (OptionName × String) × List String

/-- An option in long form, with the value that is attached to it, if any. -/
def readLong (specs : List OptionSpec) (name : String) (attached : Option String) (rest : List String) :
    Except UsageFault Taken :=
  match specs.find? (·.long == name) with
  | none => .error (.noSuchOption name (Text.closeMatches name (specs.map (·.long))))
  | some o =>
    if o.value.isNone then
      if attached.isSome then .error (.takesNoValue name) else .ok ([(o.option, "")], rest)
    else match attached, rest with
      | some v, _ => .ok ([(o.option, v)], rest)
      | none, v :: rest => .ok ([(o.option, v)], rest)
      | none, [] => .error (.needsValue name)

/-- Options in short form in one word. What follows one that takes a value is its value. -/
def readShort (specs : List OptionSpec) (rest : List String) : List Char → Except UsageFault Taken
  | [] => .ok ([], rest)
  | c :: more =>
    let name := String.ofList ['-', c]
    match specs.find? (·.short == some c) with
    | none => .error (.noSuchOption name [])
    | some o =>
      if o.value.isNone then (readShort specs rest more).map fun (os, rest) => ((o.option, "") :: os, rest)
      else match more, rest with
        | _ :: _, _ => .ok ([(o.option, String.ofList more)], rest)
        | [], v :: rest => .ok ([(o.option, v)], rest)
        | [], [] => .error (.needsValue name)

/-- A name and what is attached to it after an equals sign. -/
def splitAttached (word : List Char) : String × Option String :=
  let name := String.ofList (word.takeWhile (· != '='))
  match word.dropWhile (· != '=') with
  | _ :: value => (name, some (String.ofList value))
  | [] => (name, none)

/-- The options in a word that starts with a dash. -/
def readOption (specs : List OptionSpec) (word : List Char) (rest : List String) : Except UsageFault Taken :=
  let (name, attached) := splitAttached word
  match readLong specs name attached rest with
  | .error (.noSuchOption name close) =>
    if ['-', '-'].isPrefixOf word then .error (.noSuchOption name close)
    else readShort specs rest (word.drop 1)
  | answer => answer

/-- Read words; `anywhere` says whether options may follow other words. -/
def readWords (specs : List OptionSpec) (anywhere : Bool) : Nat → List String → Except UsageFault Given
  | 0, words => .ok ⟨[], words⟩
  | _, [] => .ok {}
  | fuel + 1, word :: rest =>
    match word.toList with
    | ['-', '-'] => .ok ⟨[], rest⟩
    | '-' :: c :: more => do
      let (options, rest) ← readOption specs ('-' :: c :: more) rest
      let g ← readWords specs anywhere fuel rest
      return { g with options := options ++ g.options }
    | _ =>
      if anywhere then (readWords specs anywhere fuel rest).map fun g => { g with words := word :: g.words }
      else .ok ⟨[], word :: rest⟩

/-- The words of the whole line, up to the command. -/
def readCommon (words : List String) : Except UsageFault Given :=
  readWords commonOptions false (words.length + 1) words

def Verb.read (v : Verb) (words : List String) : Except UsageFault Given :=
  readWords v.options true (words.length + 1) words

end ToolServer.Command
