import ToolServer.Document.Display
import ToolServer.Emit.Guide
import ToolServer.Emit.Identifier
import ToolServer.Emit.Literal
import ToolServer.Json.Writer
import ToolServer.Naming
import ToolServer.Text.Case

/-!
# Python servers

A tool server as a Python project: its manifest and one module with a function for each operation. The
names of functions and parameters are identifiers that shadow nothing the module itself uses.
-/

namespace ToolServer.Emit.Python

open Document Text

/-- Names of the module that functions and parameters must not take. -/
def reservedNames : List String := [
  "os", "json", "quote", "httpx", "mcp", "main", "Any", "Literal", "FastMCP", "REQUEST_TIMEOUT",
  "_env", "_build_url", "_compact", "_request"]

/-- The annotation of an input's type. -/
def typeNames : List (String × String) := [
  ("string", "str"), ("number", "float"), ("boolean", "bool"), ("array", "list"), ("object", "dict")]

/-- The manifest of the project. -/
def manifest (c : Config) : String :=
  joinLines [
    "[build-system]",
    "requires = [\"setuptools>=61\"]",
    "build-backend = \"setuptools.build_meta\"",
    "",
    "[project]",
    "name = \"mcp-" ++ c.name ++ "\"",
    "version = " ++ Json.quoted c.version,
    "description = " ++ Json.quoted c.description,
    "requires-python = \">=3.10\"",
    "dependencies = [",
    "    \"mcp[cli]>=1.2.0\",",
    "    \"httpx>=0.27\",",
    "]",
    "",
    "[project.scripts]",
    "mcp-" ++ c.name ++ " = \"server:main\"",
    "",
    "[tool.setuptools]",
    "py-modules = [\"server\"]",
    ""]

/-- Values that a literal type can have. -/
def isLiteralValue : Value → Bool
  | .scalar (.text _) | .scalar (.int _) | .scalar (.bool _) => true
  | _ => false

/-- The annotation of an input. -/
def annotation (p : Property) : String :=
  match p.enum with
  | some (v :: vs) =>
    if (v :: vs).all isLiteralValue then
      "Literal[" ++ ", ".intercalate ((v :: vs).map Value.quoted) ++ "]"
    else (typeNames.lookup p.type).getD "str"
  | _ => (typeNames.lookup p.type).getD "str"

/-- Whether a choice can be spelled out: an integer with too many digits cannot. -/
def isSpelled : Value → Bool
  | .scalar (.int n) => Decimal.isWritable n
  | _ => true

/-- Whether all choices that the annotation of an input spells out can be. -/
def isAnnotated (p : Property) : Bool :=
  let choices := p.enum.getD []
  !choices.all isLiteralValue || choices.all isSpelled

inductive Placement
  | header | query
deriving DecidableEq, Repr

/-- How credentials stand in the value of an entry. -/
inductive Lead
  | bearer | basic | none
  | cookie (name : String)
deriving DecidableEq, Repr

/-- An entry of the headers or of the query with credentials. -/
structure AuthEntry where
  placement : Placement
  key : String
  lead : Lead
  envVar : String
deriving DecidableEq, Repr

/-- Where credentials go. -/
def authEntry? (a : Auth) : Option AuthEntry :=
  let s := a.scheme
  if s.type = "oauth2" || s.type = "openIdConnect" || (s.type = "http" && s.scheme = some "bearer") then
    some ⟨.header, "Authorization", .bearer, a.envVar⟩
  else if s.type = "http" && s.scheme = some "basic" then
    some ⟨.header, "Authorization", .basic, a.envVar⟩
  else if s.type = "http" then some ⟨.header, "Authorization", .none, a.envVar⟩
  else if s.type = "apiKey" && s.location = some "query" then
    some ⟨.query, (nonempty s.paramName).getD "api_key", .none, a.envVar⟩
  else if s.type = "apiKey" && s.location = some "cookie" then
    some ⟨.header, "Cookie", .cookie ((nonempty s.paramName).getD s.name), a.envVar⟩
  else if s.type = "apiKey" then
    some ⟨.header, (nonempty s.paramName).getD "X-API-Key", .none, a.envVar⟩
  else none

/-- What makes two entries the same: the name, for headers in any case. -/
def AuthEntry.identity (e : AuthEntry) : Placement × String :=
  (e.placement, match e.placement with
    | .query => e.key
    | .header => lower e.key)

/-- The entries with credentials, of several that are the same the first. -/
def authEntries (auth : List Auth) : List AuthEntry :=
  ((auth.filterMap authEntry?).foldl (fun m e => Ordered.putNew e.identity e m) []).map (·.2)

def AuthEntry.value (e : AuthEntry) : String :=
  let env := "_env(" ++ Json.quoted e.envVar ++ ")"
  match e.lead with
  | .bearer => "\"Bearer \" + " ++ env
  | .basic => "\"Basic \" + " ++ env
  | .none => env
  | .cookie name => Json.quoted (name ++ "=") ++ " + " ++ env

/-- A member of a mapping. -/
def entry (key value : String) : String := Json.quoted key ++ ": " ++ value

def AuthEntry.text (e : AuthEntry) : String := entry e.key e.value

/-- The inputs of a tool with their identifiers. -/
def inputIdentifiers (functionName : String) (s : InputSchema) : List (String × String) :=
  Ordered.ofPairs (identifiersFrom (functionName :: reservedNames) (s.properties.map (·.1)))

/-- Members for those of some names that are inputs, the name written by `key`. -/
def inputEntries (idents : List (String × String)) (key : String → String) (names : List String) :
    List String :=
  names.filterMap fun n => (idents.lookup n).map (entry (key n))

def braced (members : List String) : String := "\x7b" ++ ", ".intercalate members ++ "\x7d"

/-- The parameters of a function: the required inputs first. -/
def signature (idents : List (String × String)) (s : InputSchema) : List String :=
  let name (n : String) : String := (idents.lookup n).getD n
  let required := s.properties.filter fun e => s.required.contains e.1
  let optional := s.properties.filter fun e => !s.required.contains e.1
  required.map (fun e => name e.1 ++ ": " ++ annotation e.2) ++
    optional.map (fun e => name e.1 ++ ": " ++ annotation e.2 ++ " | None = None")

/-- The argument that gives the body, if there is one. -/
def bodyArgument (idents : List (String × String)) (s : InputSchema) (h : Handler) : List String :=
  match nonempty h.bodyParam with
  | none => []
  | some name =>
    if name = bodyObject then
      let routed := h.pathParams ++ h.queryParams ++ h.headerParams
      let fields := inputEntries idents id ((s.properties.map (·.1)).filter (!routed.contains ·))
      ["body=_compact(" ++ braced fields ++ ")"]
    else match idents.lookup name with
      | some ident => ["body=" ++ ident]
      | none => []

def formArgument (h : Handler) : List String :=
  if (nonempty h.bodyParam).isSome && h.contentType = "application/x-www-form-urlencoded" then ["form=True"]
  else []

/-- The arguments of the call to the interface. -/
def arguments (idents : List (String × String)) (t : Tool) : List String :=
  let h := t.handler
  let auth := authEntries h.auth
  let query := inputEntries idents id h.queryParams ++
    (auth.filter (·.placement = .query)).map AuthEntry.text
  let headers := inputEntries idents Naming.headerOfInput h.headerParams ++
    (auth.filter (·.placement = .header)).map AuthEntry.text
  [Json.quoted (upper h.method),
    "_build_url(" ++ Json.quoted h.baseUrlName ++ ", " ++ Json.quoted h.baseUrl ++ ", " ++
      Json.quoted h.path ++ ", " ++ braced (inputEntries idents id h.pathParams) ++ ")"] ++
  (if query.isEmpty then [] else ["params=" ++ braced query]) ++
  (if headers.isEmpty then [] else ["headers=" ++ braced headers]) ++
  bodyArgument idents t.inputSchema h ++ formArgument h

/-- The function of a tool. -/
def function (t : Tool) (functionName : String) : String :=
  let idents := inputIdentifiers functionName t.inputSchema
  let decorator := if functionName = t.name then "@mcp.tool()"
    else "@mcp.tool(name=" ++ Json.quoted t.name ++ ")"
  joinLines [
    decorator,
    "async def " ++ functionName ++ "(" ++ ", ".intercalate (signature idents t.inputSchema) ++ ") -> str:",
    "    \"\"\"" ++ docText t.description ++ "\"\"\"",
    "    return await _request(",
    "        " ++ ",\n        ".intercalate (arguments idents t) ++ ",",
    "    )"]

/-- The names of the functions of tools. -/
def functionNames (tools : List Tool) : List (String × String) :=
  Ordered.ofPairs (identifiersFrom reservedNames (tools.map (·.name)))

/-- The imports of the module, after its documentation. -/
def imports : List String := [
  "\"\"\"",
  "",
  "import json",
  "import os",
  "from typing import Any, Literal",
  "from urllib.parse import quote",
  "",
  "import httpx",
  "from mcp.server.fastmcp import FastMCP",
  "",
  "REQUEST_TIMEOUT = 30.0",
  ""]

/-- What the functions of the module share. -/
def shared : List String := [
  "",
  "",
  "def _env(name: str) -> str:",
  "    return os.environ.get(name, \"\")",
  "",
  "",
  "def _build_url(env_var: str, default: str, path: str, path_params: dict[str, Any]) -> str:",
  "    base_url = os.environ.get(env_var) or default",
  "    for name, value in path_params.items():",
  "        path = path.replace(\"\x7b\" + name + \"\x7d\", quote(str(value), safe=\"\"))",
  "    return base_url.rstrip(\"/\") + path",
  "",
  "",
  "def _compact(values: dict[str, Any]) -> dict[str, Any]:",
  "    return \x7bk: v for k, v in values.items() if v is not None\x7d",
  "",
  "",
  "async def _request(",
  "    method: str,",
  "    url: str,",
  "    params: dict[str, Any] | None = None,",
  "    headers: dict[str, Any] | None = None,",
  "    body: Any = None,",
  "    form: bool = False,",
  ") -> str:",
  "    request_headers = \x7b\"Accept\": \"application/json\"\x7d",
  "    request_headers.update(\x7bk: str(v) for k, v in _compact(headers or \x7b\x7d).items()\x7d)",
  "    query = \x7bk: str(v).lower() if isinstance(v, bool) else v for k, v in _compact(params or \x7b\x7d).items()\x7d",
  "",
  "    kwargs: dict[str, Any] = \x7b\x7d",
  "    if body is not None:",
  "        kwargs[\"data\" if form else \"json\"] = body",
  "",
  "    async with httpx.AsyncClient() as client:",
  "        response = await client.request(",
  "            method,",
  "            url,",
  "            params=query,",
  "            headers=request_headers,",
  "            timeout=REQUEST_TIMEOUT,",
  "            **kwargs,",
  "        )",
  "",
  "    if response.is_error:",
  "        raise RuntimeError(",
  "            f\"API request failed: \x7bresponse.status_code\x7d \x7bresponse.reason_phrase\x7d - \x7bresponse.text\x7d\"",
  "        )",
  "    if \"application/json\" in response.headers.get(\"content-type\", \"\"):",
  "        return json.dumps(response.json(), indent=2)",
  "    return response.text",
  "",
  ""]

/-- The end of the module. -/
def start : List String := [
  "",
  "",
  "def main() -> None:",
  "    mcp.run()",
  "",
  "",
  "if __name__ == \"__main__\":",
  "    main()",
  ""]

/-- The module of the server. -/
def server (c : Config) : String :=
  let tools := c.enabledTools
  let names := functionNames tools
  let functions := tools.map fun t => function t ((names.lookup t.name).getD t.name)
  joinLines (["\"\"\"" ++ docText c.name ++ " MCP server.", "", "Generated by " ++ generatorName ++ "."] ++
    imports ++ ["mcp = FastMCP(" ++ Json.quoted c.name ++ ")"] ++ shared ++
    ["\n\n".intercalate functions] ++ start)

def container : String := joinLines [
  "FROM python:3.12-slim",
  "WORKDIR /app",
  "COPY pyproject.toml server.py ./",
  "RUN pip install --no-cache-dir .",
  "CMD [\"python\", \"server.py\"]",
  ""]

def guideParts : GuideParts where
  install := "pip install -e ."
  run := "python server.py"
  command := "python"
  argument := "server.py"
  build := []

/-- The files of the project, in order. -/
def files (c : Config) : Except Fault (List (String × String)) :=
  if c.enabledTools.all fun t => t.inputSchema.properties.all fun e => isAnnotated e.2 then
    .ok [
      ("pyproject.toml", manifest c),
      ("server.py", server c),
      (".env.example", envExample c),
      ("Dockerfile", container),
      ("README.md", guide guideParts c)]
  else .error .badContent

end ToolServer.Emit.Python
