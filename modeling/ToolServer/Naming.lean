import ToolServer.Decimal.Digits
import ToolServer.Text.Case
import ToolServer.Text.Piece

/-!
# Names of tools, servers and variables

A tool is named by its operation's identifier or, without one, by a verb for its method and the
segments of its path, a parameter `{x}` read as `by_x`. Tool names are at most 64 characters of small
ASCII letters, digits, hyphens and underscores; names that would repeat get a number behind them.
-/

namespace ToolServer.Naming

open Text

def maxToolName : Nat := 64
def maxServerName : Nat := 50
def maxPrefix : Nat := 20

/-- The verb of a method in a tool name. -/
def verbs : List (String × String) := [
  ("get", "get"), ("post", "create"), ("put", "update"), ("patch", "patch"), ("delete", "delete"),
  ("head", "check"), ("options", "options")]

/-- The verb of a method in a sentence. -/
def spokenVerbs : List (String × String) := [
  ("get", "Retrieve"), ("post", "Create"), ("put", "Update"), ("patch", "Partially update"),
  ("delete", "Delete"), ("head", "Check"), ("options", "Get options for")]

def verb (method : String) : String := (verbs.lookup (lower method)).getD (lower method)

def spokenVerb (method : String) : String := (spokenVerbs.lookup (lower method)).getD (upper method)

/-- A character of a tool name that stands for itself; an underscore joins such characters. -/
def isToolChar (c : Char) : Bool := isAsciiLetter c || isAsciiDigit c || c == '-'

/-- A text as a tool name: other characters become underscores, of which none stand together or at
an end. The name is empty when no character is left. -/
def toolChars (s : List Char) : List Char :=
  ((stripWhile (· == '_') (collapse isToolChar '_' s)).flatMap lowerChar).take maxToolName

def toolName (s : String) : String := String.ofList (toolChars s.toList)

/-- A path segment in a tool name. -/
def segmentName (segment : List Char) : List Char :=
  match segment with
  | '{' :: rest =>
    match rest.reverse with
    | '}' :: inner => "by_".toList ++ inner.reverse
    | _ => segment
  | _ => segment

/-- The name of a method and path, before it is made a tool name. -/
def routeName (method path : String) : String :=
  let segments := (cut '/' path.toList).filter (!·.isEmpty)
  "_".intercalate (verb method :: segments.map fun s => String.ofList (segmentName s))

/-- The name of an operation's tool. -/
def operationName (method path : String) (operationId : Option String) : String :=
  let byId := (operationId.map toolName).getD ""
  if byId != "" then byId
  else
    let byRoute := toolName (routeName method path)
    if byRoute != "" then byRoute else verb method

/-- A name with a number behind it, cut so that both fit. -/
def numbered (name : String) (n : Nat) : String :=
  let ending := '_' :: Decimal.digits n
  String.ofList (name.toList.take (maxToolName - ending.length) ++ ending)

/-- The first numbered form of a name, from two on, that is not taken. As the forms differ, one more
of them than there are taken names suffices. -/
def freeName (taken : List String) (name : String) : String :=
  (((List.range (taken.length + 1)).map fun i => numbered name (i + 2)).find?
    (!taken.contains ·)).getD name

/-- Make names distinct: the first of each keeps its name, and a later one gets a numbered form that is
neither used before it nor one of the given names. -/
def distinctFrom (given used : List String) : List String → List String
  | [] => []
  | name :: rest =>
    let chosen := if used.contains name then freeName (used ++ given) name else name
    chosen :: distinctFrom given (chosen :: used) rest

def distinct (names : List String) : List String := distinctFrom names [] names

def isSlugChar (c : Char) : Bool := isAsciiLower c || isAsciiDigit c

/-- Small letters and digits with one mark between runs of them. -/
def slug (mark : Char) (s : String) : List Char :=
  stripWhile (· == mark) (collapse isSlugChar mark (lower s).toList)

/-- A title as a server name, words joined by hyphens. -/
def serverName (title : String) (default : String := "api-server") : String :=
  let name := (slug '-' title).take maxServerName
  if name.isEmpty then default else String.ofList name

/-- A name as the start of tool names. -/
def prefixOf (name : String) (limit : Nat := maxPrefix) : String :=
  let p := (slug '_' name).take limit
  if p.isEmpty then "api" else String.ofList p

/-- A name as a part of a variable name: capital letters, digits and underscores. -/
def envSegment (name : String) : String :=
  String.ofList ((upper name).toList.map fun c => if isAsciiUpper c || isAsciiDigit c then c else '_')

/-- A header as the name of a tool input. -/
def headerInput (name : String) : String :=
  "header_" ++ String.ofList ((lower name).toList.map fun c => if isSlugChar c then c else '_')

/-- The header that a tool input stands for. -/
def headerOfInput (input : String) : String :=
  let cs := input.toList
  let mark := "header_".toList
  let name := if mark.isPrefixOf cs then cs.drop mark.length else cs
  String.ofList (name.map fun c => if c = '_' then '-' else c)

end ToolServer.Naming
