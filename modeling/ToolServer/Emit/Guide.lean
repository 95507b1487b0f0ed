import ToolServer.Text.Piece
import ToolServer.Tool.Config

/-!
# Guides for people

The texts that go with every generated server, whatever its language: the example of an environment
file, and the parts of the guide that list tools and variables.
-/

namespace ToolServer.Emit

/-- The name that generated texts give for their origin. -/
def generatorName : String := "mcp-forge"

def joinLines (lines : List String) : String := "\n".intercalate lines

/-- A text on one line, each run of blanks one space. -/
def oneLine (s : String) : String :=
  " ".intercalate ((Text.words s.toList).map String.ofList)

/-- The lines of a variable in the environment file: what it is for, its value, and a blank line. -/
def envLines (v : EnvVar) : List String :=
  ["# " ++ oneLine v.description, v.name ++ "=" ++ v.example_.getD "", ""]

def envExample (c : Config) : String :=
  joinLines (["# " ++ c.name ++ " MCP Server - Environment Variables",
    "# Copy this to .env and fill in your values", ""] ++ c.envVars.flatMap envLines)

def toolList (c : Config) : String :=
  joinLines (c.enabledTools.map fun t => "- **" ++ t.name ++ "** - " ++ t.description)

def variableList (c : Config) : String :=
  joinLines (c.envVars.map fun v =>
    "- `" ++ v.name ++ "` - " ++ v.description ++ (if v.required then " (required)" else ""))

/-- The variables as members of an object, to be filled in. -/
def variableMembers (indent : Nat) (c : Config) : String :=
  let pad := String.ofList (List.replicate indent ' ')
  ",\n".intercalate (c.envVars.map fun v => pad ++ "\"" ++ v.name ++ "\": \"your-value-here\"")

/-- What differs between the guides of two languages. -/
structure GuideParts where
  install : String
  run : String
  command : String
  argument : String
  build : List String

/-- The guide to a generated server. -/
def guide (parts : GuideParts) (c : Config) : String :=
  joinLines ([
    "# " ++ c.name ++ " MCP Server", "", c.description, "", "> Generated by " ++ generatorName, "",
    "## Quick Start", "", "```bash", parts.install, "cp .env.example .env",
    "# Edit .env with your API credentials", parts.run, "```", "",
    "## Tools", "", toolList c, "", "## Environment Variables", "", variableList c, "",
    "## Usage with Claude Desktop", "", "Add to your `claude_desktop_config.json`:", "", "```json",
    "\x7b", "  \"mcpServers\": \x7b", "    \"" ++ c.name ++ "\": \x7b",
    "      \"command\": \"" ++ parts.command ++ "\",", "      \"args\": [\"" ++ parts.argument ++ "\"],",
    "      \"env\": \x7b", variableMembers 8 c, "      \x7d", "    \x7d", "  \x7d", "\x7d", "```", ""] ++
    parts.build ++ [
    "## Docker", "", "```bash", "docker build -t mcp-" ++ c.name ++ " .",
    "docker run -i --env-file .env mcp-" ++ c.name, "```", ""])

end ToolServer.Emit
