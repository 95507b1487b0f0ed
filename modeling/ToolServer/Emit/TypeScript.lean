import ToolServer.Emit.Guide
import ToolServer.Emit.Literal
import ToolServer.Json.Writer
import ToolServer.Naming
import ToolServer.Text.Case

/-!
# TypeScript servers

A tool server as a TypeScript project: its manifest, the program that registers a tool for each operation
with a check of its inputs, and the client that the tools call the interface with. Texts are written
line by line.
-/

namespace ToolServer.Emit.TypeScript

open Document Text

/-- The most characters of a tool's and of an input's description that are written. -/
def toolDescriptionLimit : Nat := 200
def inputDescriptionLimit : Nat := 100

def cutTo (limit : Nat) (s : String) : String := String.ofList (s.toList.take limit)

/-- The variable of a name; brackets, as a name may begin with a digit. -/
def envAccess (name : String) : String := "process.env[" ++ scriptString name ++ "]"

def member (name : String) (v : Value) : Scalar × Value := (.text name, v)

/-- The manifest of the project. -/
def manifest (c : Config) : Value :=
  .map [
    member "name" (.text ("mcp-" ++ c.name)), member "version" (.text c.version),
    member "description" (.text c.description), member "type" (.text "module"),
    member "main" (.text "dist/index.js"),
    member "scripts" (.map [member "build" (.text "tsc"), member "start" (.text "node dist/index.js"),
      member "dev" (.text "tsx src/index.ts")]),
    member "dependencies" (.map [member "@modelcontextprotocol/sdk" (.text "^1.0.0"),
      member "zod" (.text "^3.23.0")]),
    member "devDependencies" (.map [member "typescript" (.text "^5.7.0"),
      member "@types/node" (.text "^22.0.0"), member "tsx" (.text "^4.19.0")])]

/-- The options of the compiler. -/
def compilerOptions : Value :=
  .map [
    member "compilerOptions" (.map [
      member "target" (.text "ES2022"), member "module" (.text "NodeNext"),
      member "moduleResolution" (.text "NodeNext"), member "outDir" (.text "./dist"),
      member "rootDir" (.text "./src"), member "strict" (.bool true),
      member "esModuleInterop" (.bool true), member "skipLibCheck" (.bool true),
      member "declaration" (.bool true)]),
    member "include" (.list [.text "src/**/*"])]

def jsonFile (v : Value) : Except Fault String := do return (← Json.writeIndented v) ++ "\n"

/-- The program that starts the server. -/
def index (c : Config) : String :=
  joinLines [
    "import \x7b McpServer \x7d from '@modelcontextprotocol/sdk/server/mcp.js';",
    "import \x7b StdioServerTransport \x7d from '@modelcontextprotocol/sdk/server/stdio.js';",
    "import \x7b registerTools \x7d from './tools.js';",
    "",
    "const server = new McpServer(\x7b",
    "  name: '" ++ scriptText c.name ++ "',",
    "  version: '" ++ scriptText c.version ++ "',",
    "\x7d);",
    "",
    "registerTools(server);",
    "",
    "async function main() \x7b",
    "  const transport = new StdioServerTransport();",
    "  await server.connect(transport);",
    "  console.error('" ++ scriptText c.name ++ " MCP server running on stdio');",
    "\x7d",
    "",
    "main().catch((error) => \x7b",
    "  console.error('Fatal error:', error);",
    "  process.exit(1);",
    "\x7d);",
    ""]

def isTextValue : Value → Bool
  | .scalar (.text _) => true
  | _ => false

/-- A value as a literal. -/
def literal : Value → Except Fault String
  | .scalar (.text s) => .ok (scriptString s)
  | v => Json.write v

/-- The check of an enumeration. -/
def enumCheck (values : List Value) : Except Fault String := do
  if values.all isTextValue then
    let texts ← values.mapM literal
    return "z.enum([" ++ ", ".intercalate texts ++ "])"
  else
    let literals ← values.mapM fun v => do return "z.literal(" ++ (← literal v) ++ ")"
    match literals with
    | [l] => return l
    | ls => return "z.union([" ++ ", ".intercalate ls ++ "])"

mutual
/-- The check of an input. -/
def check : Property → Except Fault String
  | ⟨type, _, enum, _, items, _, _, _, _, _⟩ =>
    match enum with
    | some (v :: vs) => enumCheck (v :: vs)
    | _ =>
      if type = "string" then .ok "z.string()"
      else if type = "number" then .ok "z.number()"
      else if type = "boolean" then .ok "z.boolean()"
      else if type = "array" then do return "z.array(" ++ (← itemsCheck items) ++ ")"
      else if type = "object" then .ok "z.object(\x7b\x7d).passthrough()"
      else .ok "z.string()"
def itemsCheck : Option Property → Except Fault String
  | some p => check p
  | none => .ok "z.unknown()"
end

/-- The line of one input. -/
def inputLine (required : List String) (input : String × Property) : Except Fault String := do
  let described := match nonempty input.2.description with
    | some d => ".describe(" ++ scriptString (cutTo inputDescriptionLimit d) ++ ")"
    | none => ""
  let optional := if required.contains input.1 then "" else ".optional()"
  return "      " ++ memberKey input.1 ++ ": " ++ (← check input.2) ++ described ++ optional ++ ","

def inputLines (s : InputSchema) : Except Fault (List String) :=
  s.properties.mapM (inputLine s.required)

/-- The path of an operation inside a template, its parameters filled in. -/
def pathTemplate (h : Handler) : String :=
  String.ofList (h.pathParams.foldl (fun path name =>
    replaceAll ('{' :: (scriptText name).toList ++ ['}'])
      ("$\x7bencodeURIComponent(String(" ++ memberAccess "params" name ++ "))\x7d").toList path)
    (scriptText h.path).toList)

/-- The credentials that go into the query. -/
def isQueryKey (a : Auth) : Bool := a.scheme.type == "apiKey" && a.scheme.location == some "query"

/-- The lines that give the input of a name to the query. -/
def queryLine (name : String) : String :=
  let value := memberAccess "params" name
  "      if (" ++ value ++ " !== undefined) queryParams.set(" ++ scriptString name ++ ", String(" ++ value ++ "));"

def queryKeyLine (a : Auth) : String :=
  "      queryParams.set(" ++ scriptString ((nonempty a.scheme.paramName).getD "api_key") ++ ", " ++
    envAccess a.envVar ++ " || '');"

/-- The lines that put the query together. -/
def queryLines (h : Handler) : List String :=
  let keys := h.auth.filter isQueryKey
  if h.queryParams.isEmpty && keys.isEmpty then ["      const fullUrl = url;"]
  else
    ["      const queryParams = new URLSearchParams();"] ++ h.queryParams.map queryLine ++
      keys.map queryKeyLine ++
      ["      const fullUrl = queryParams.toString() ? `$\x7burl\x7d?$\x7bqueryParams\x7d` : url;"]

/-- What is sent as the body, and the lines that make it. -/
def bodyParts (h : Handler) : List String × Option String :=
  match nonempty h.bodyParam with
  | none => ([], none)
  | some name =>
    if name = bodyObject then
      let excluded := (h.pathParams ++ h.queryParams ++ h.headerParams).map scriptString
      (["      const excluded: string[] = [" ++ ", ".intercalate excluded ++ "];",
        "      const body = Object.fromEntries(",
        "        Object.entries(params).filter(([k, v]) => !excluded.includes(k) && v !== undefined)",
        "      );"], some "body")
    else ([], some (memberAccess "params" name))

/-- How credentials stand in the value of a header. -/
inductive Lead
  | bearer | basic | none
  | cookie (name : String)
deriving DecidableEq, Repr

/-- A header with credentials. -/
structure AuthHeader where
  key : String
  lead : Lead
  envVar : String
deriving DecidableEq, Repr

/-- The header that carries credentials, if they go into one. -/
def authHeader? (a : Auth) : Option AuthHeader :=
  let s := a.scheme
  if s.type = "oauth2" || s.type = "openIdConnect" then some ⟨"Authorization", .bearer, a.envVar⟩
  else if s.type = "http" then
    if s.scheme = some "bearer" then some ⟨"Authorization", .bearer, a.envVar⟩
    else if s.scheme = some "basic" then some ⟨"Authorization", .basic, a.envVar⟩
    else some ⟨"Authorization", .none, a.envVar⟩
  else if s.type = "apiKey" then
    if s.location = some "cookie" then
      some ⟨"Cookie", .cookie ((nonempty s.paramName).getD s.name), a.envVar⟩
    else if s.location = some "query" then none
    else some ⟨(nonempty s.paramName).getD "X-API-Key", .none, a.envVar⟩
  else none

/-- The headers with credentials; of one name, whatever its case, the first. -/
def authHeaders (auth : List Auth) : List AuthHeader :=
  ((auth.filterMap authHeader?).foldl (fun m h => Ordered.putNew (lower h.key) h m) []).map (·.2)

def AuthHeader.line (h : AuthHeader) : String :=
  let env := envAccess h.envVar ++ " || ''"
  let value := match h.lead with
    | .bearer => "`Bearer $\x7b" ++ env ++ "\x7d`"
    | .basic => "`Basic $\x7b" ++ env ++ "\x7d`"
    | .none => env
    | .cookie name => "`" ++ scriptText name ++ "=$\x7b" ++ env ++ "\x7d`"
  "        " ++ scriptString h.key ++ ": " ++ value

/-- The header of an input, if it is given. -/
def headerLine (input : String) : String :=
  let value := memberAccess "params" input
  "        ...(" ++ value ++ " !== undefined ? \x7b " ++ scriptString (Naming.headerOfInput input) ++
    ": String(" ++ value ++ ") \x7d : \x7b\x7d)"

/-- Put a comma behind every line but the last. -/
def commaSeparated : List String → List String
  | [] => []
  | [line] => [line]
  | line :: rest => (line ++ ",") :: commaSeparated rest

def headerLines (h : Handler) : List String :=
  let lines := (authHeaders h.auth).map AuthHeader.line ++ h.headerParams.map headerLine
  if lines.isEmpty then []
  else ["        headers: \x7b"] ++ commaSeparated lines ++ ["        \x7d,"]

/-- The lines that call the interface and answer with the result. -/
def handlerLines (h : Handler) : List String :=
  let (making, body) := bodyParts h
  ["      const baseUrl = " ++ envAccess h.baseUrlName ++ " || " ++ scriptString h.baseUrl ++ ";",
    "      const url = `$\x7bbaseUrl\x7d" ++ pathTemplate h ++ "`;"] ++
  queryLines h ++ making ++
  ["      const result = await apiRequest(\x7b",
    "        method: " ++ scriptString (upper h.method) ++ ",",
    "        url: fullUrl,"] ++
  (match body with
    | some value => ["        body: " ++ value ++ ","]
    | none => []) ++
  headerLines h ++ [
    "      \x7d);",
    "",
    "      return \x7b",
    "        content: [\x7b",
    "          type: 'text' as const,",
    "          text: typeof result === 'string' ? result : JSON.stringify(result, null, 2),",
    "        \x7d],",
    "      \x7d;"]

/-- The registration of a tool. A tool without inputs has one empty line for them. -/
def toolLines (t : Tool) : Except Fault (List String) := do
  let inputs ← inputLines t.inputSchema
  return [
    "  // " ++ upper t.source.method ++ " " ++ t.source.path,
    "  server.tool(",
    "    " ++ scriptString t.name ++ ",",
    "    " ++ scriptString (cutTo toolDescriptionLimit t.description) ++ ",",
    "    \x7b"] ++ (if inputs.isEmpty then [""] else inputs) ++ [
    "    \x7d,",
    "    async (params) => \x7b"] ++ handlerLines t.handler ++ [
    "    \x7d",
    "  );"]

/-- The module that registers the tools. -/
def tools (c : Config) : Except Fault String := do
  let registrations ← c.enabledTools.mapM fun t => do return joinLines (← toolLines t)
  return joinLines [
    "import \x7b McpServer \x7d from '@modelcontextprotocol/sdk/server/mcp.js';",
    "import \x7b z \x7d from 'zod';",
    "import \x7b apiRequest \x7d from './http-client.js';",
    "",
    "export function registerTools(server: McpServer) \x7b",
    "\n\n".intercalate registrations,
    "\x7d",
    ""]

/-- The client that the tools call the interface with. -/
def httpClient : String := joinLines [
  "interface RequestOptions \x7b",
  "  method: string;",
  "  url: string;",
  "  body?: unknown;",
  "  headers?: Record<string, string>;",
  "\x7d",
  "",
  "export async function apiRequest(options: RequestOptions): Promise<unknown> \x7b",
  "  const headers: Record<string, string> = \x7b",
  "    'Content-Type': 'application/json',",
  "    'Accept': 'application/json',",
  "    ...options.headers,",
  "  \x7d;",
  "",
  "  const response = await fetch(options.url, \x7b",
  "    method: options.method,",
  "    headers,",
  "    body: options.body !== undefined ? JSON.stringify(options.body) : undefined,",
  "  \x7d);",
  "",
  "  const contentType = response.headers.get('content-type') || '';",
  "",
  "  if (!response.ok) \x7b",
  "    const errorText = await response.text();",
  "    throw new Error(`API request failed: $\x7bresponse.status\x7d $\x7bresponse.statusText\x7d - $\x7berrorText\x7d`);",
  "  \x7d",
  "",
  "  if (contentType.includes('application/json')) \x7b",
  "    return response.json();",
  "  \x7d",
  "",
  "  return response.text();",
  "\x7d",
  ""]

def container : String := joinLines [
  "FROM node:22-slim AS builder",
  "WORKDIR /app",
  "COPY package.json ./",
  "RUN npm install",
  "COPY . .",
  "RUN npm run build",
  "",
  "FROM node:22-slim",
  "WORKDIR /app",
  "COPY --from=builder /app/dist ./dist",
  "COPY --from=builder /app/package.json ./",
  "COPY --from=builder /app/node_modules ./node_modules",
  "CMD [\"node\", \"dist/index.js\"]",
  ""]

def guideParts : GuideParts where
  install := "npm install"
  run := "npm run dev"
  command := "node"
  argument := "dist/index.js"
  build := ["## Build", "", "```bash", "npm run build", "npm start", "```", ""]

/-- The files of the project, in order. -/
def files (c : Config) : Except Fault (List (String × String)) := do
  return [
    ("package.json", ← jsonFile (manifest c)),
    ("tsconfig.json", ← jsonFile compilerOptions),
    ("src/index.ts", index c),
    ("src/tools.ts", ← tools c),
    ("src/http-client.ts", httpClient),
    (".env.example", envExample c),
    ("Dockerfile", container),
    ("README.md", guide guideParts c)]

end ToolServer.Emit.TypeScript
