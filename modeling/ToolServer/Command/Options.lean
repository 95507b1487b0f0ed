import ToolServer.Emit.Project

/-!
# Commands and options

The commands, with the options and arguments that each takes.
-/

namespace ToolServer.Command

inductive OptionName
  | verbose | json | output | language | name | description | disable | check | help
deriving DecidableEq, Repr

/-- An option: its spellings, the word for its value if it has one, and what it is for. -/
structure OptionSpec where
  option : OptionName
  short : Option Char
  long : String
  value : Option String
  required : Bool
  purpose : String

/-- The spellings of an option, the short one first. -/
def OptionSpec.spellings (o : OptionSpec) : List String :=
  (o.short.map fun c => String.ofList ['-', c]).toList ++ [o.long]

namespace OptionSpec

def flag (option : OptionName) (long purpose : String) : OptionSpec :=
  ⟨option, none, long, none, false, purpose⟩

def valued (option : OptionName) (long value purpose : String) : OptionSpec :=
  ⟨option, none, long, some value, false, purpose⟩

def help : OptionSpec := flag .help "--help" "Show this message and exit."

def verbose : OptionSpec := ⟨.verbose, some 'v', "--verbose", none, false, "Show debug logging."⟩

def output : OptionSpec :=
  ⟨.output, some 'o', "--output", some "DIRECTORY", true, "Output directory for the generated server."⟩

def language : OptionSpec :=
  ⟨.language, some 'l', "--language", some ("[" ++ "|".intercalate (Emit.languages.map (·.1)) ++ "]"), false,
    "Target language."⟩

def check : OptionSpec := flag .check "--check" "Validate generated files before writing them."

end OptionSpec

inductive Verb
  | compose | diff | generate | parse
deriving DecidableEq, Repr

namespace Verb

/-- All commands, in alphabetic order. -/
def all : List Verb := [compose, diff, generate, parse]

def name : Verb → String
  | compose => "compose"
  | diff => "diff"
  | generate => "generate"
  | parse => "parse"

def ofName? (s : String) : Option Verb := all.find? (·.name == s)

open OptionSpec in
def options : Verb → List OptionSpec
  | compose => [
      output, language, valued .name "--name" "TEXT" "Server name.",
      valued .description "--description" "TEXT" "Server description.",
      valued .disable "--disable" "TEXT" "API=TOOL to leave out (repeatable).", check, help]
  | diff => [
      flag .json "--json" "Print the diff as JSON.",
      valued .disable "--disable" "TEXT" "Tool name disabled in the new version (repeatable).", help]
  | generate => [
      output, language, valued .name "--name" "TEXT" "Override the server name.",
      valued .disable "--disable" "TEXT" "Tool name to leave out (repeatable).", check, help]
  | parse => [flag .json "--json" "Print the mapped server config as JSON.", help]

/-- The arguments; three points mean any number of them. -/
def arguments : Verb → List String
  | compose => ["APIS..."]
  | diff => ["OLD_SPEC", "NEW_SPEC"]
  | generate | parse => ["SPEC_PATH"]

/-- What a command does, in one sentence. -/
def summary : Verb → String
  | compose => "Compose several APIs into one MCP server."
  | diff => "Compare two versions of a spec."
  | generate => "Generate an MCP server from one OpenAPI spec."
  | parse => "Parse a spec and show the tools it maps to."

/-- The paragraphs that explain a command. -/
def explanation : Verb → List String
  | compose => [summary compose, "Each API is given as NAME=PATH, e.g. weather=specs/weather.yaml."]
  | diff => [summary diff ++ " Exits with status 1 on breaking changes."]
  | v => [v.summary]

end Verb

def programName : String := "mcp-forge"

def programSummary : String := "mcp-forge - turn OpenAPI specs into MCP servers."

/-- The options before the command. -/
def commonOptions : List OptionSpec := [OptionSpec.verbose, OptionSpec.help]

end ToolServer.Command
