import ToolServer.Api.Records
import ToolServer.Tool.Credentials
import ToolServer.Tool.Property

/-!
# From descriptions to tool servers

Each operation that is not deprecated becomes one tool. Its parameters are inputs, those in cookies left
out; the fields of an object body are inputs too, and any other body is one input.
-/

namespace ToolServer

open Document Schema Api Text

/-- The inputs that are gathered for a tool, and where each goes. -/
structure Inputs where
  properties : List (String × Property) := []
  required : List Value := []
  pathParams : List String := []
  queryParams : List String := []
  headerParams : List String := []
  bodyParam : Option String := none

namespace Inputs

def put (i : Inputs) (name : String) (p : Property) : Inputs :=
  { i with properties := Ordered.put name p i.properties }

def require (i : Inputs) (name : Value) : Inputs :=
  if i.required.contains name then i else { i with required := i.required ++ [name] }

/-- The input of a parameter; a header has its own kind of name. -/
def inputName (p : Parameter) : String :=
  if p.location = "header" then Naming.headerInput p.name else p.name

/-- Note where a parameter goes. -/
def route (i : Inputs) (p : Parameter) : Inputs :=
  if p.location = "path" then { i with pathParams := i.pathParams ++ [p.name] }
  else if p.location = "query" then { i with queryParams := i.queryParams ++ [p.name] }
  else if p.location = "header" then { i with headerParams := i.headerParams ++ [inputName p] }
  else i

def addParameter (i : Inputs) (p : Parameter) : Except Fault Inputs := do
  if p.location = "cookie" then return i
  let name := inputName p
  let i := i.put name (← Property.ofSchema p.schema p.description)
  let i := if p.required then i.require (.text name) else i
  return i.route p

def addField (i : Inputs) (field : Scalar × Value) : Except Fault Inputs := do
  return i.put field.1.display (← Property.ofValue none field.2)

/-- A body: its fields as inputs if it is an object with properties, else one input. -/
def addBody (i : Inputs) (body : RequestBody) : Except Fault Inputs := do
  let properties := Entries.get body.schema "properties"
  if kind body.schema = .object && properties.isTruthy then
    let i ← (← properties.members).foldlM addField i
    let names ← ((Entries.get? body.schema "required").getD (.list [])).elements
    return { names.foldl require i with bodyParam := some bodyObject }
  else
    let i := i.put "body" (← Property.ofSchema body.schema body.description)
    let i := if body.required then i.require (.text "body") else i
    return { i with bodyParam := some "body" }

end Inputs

/-- All required names as texts. -/
def requiredTexts (names : List Value) : Except Fault (List String) :=
  checked .inputSchema (texts? names)

def gather (e : Endpoint) : Except Fault Inputs := do
  let i ← e.parameters.foldlM Inputs.addParameter {}
  match e.requestBody with
  | some body => i.addBody body
  | none => return i

/-- What a tool tells about itself: summary and description, or a sentence from method and path. -/
def toolDescription (e : Endpoint) : String :=
  match nonempty e.summary, nonempty e.description with
  | some s, some d => s ++ ". " ++ d
  | some s, none => s
  | none, some d => d
  | none, none =>
    let named (segment : List Char) : Bool := !segment.isEmpty && segment.head? != some '{'
    let resource := match ((cut '/' e.path.toList).filter named).getLast? with
      | some segment => String.ofList segment
      | none => "resource"
    Naming.spokenVerb e.method ++ " " ++ resource

/-- The tool of an operation. -/
def toolOf (d : Description) (e : Endpoint) : Except Fault Tool := do
  let i ← gather e
  let required ← requiredTexts i.required
  return {
    name := Naming.operationName e.method e.path e.operationId
    description := toolDescription e
    inputSchema := { properties := i.properties, required }
    handler := {
      method := upper e.method
      path := e.path
      baseUrl := d.baseUrl
      baseUrlEnvVar := none
      contentType := match e.requestBody with
        | some body => body.contentType
        | none => "application/json"
      pathParams := i.pathParams
      queryParams := i.queryParams
      headerParams := i.headerParams
      bodyParam := i.bodyParam
      auth := requiredAuth e.security d.schemes }
    source := { path := e.path, method := e.method, operationId := e.operationId }
    enabled := true }

def baseUrlEnv (d : Description) : EnvVar where
  name := baseUrlVariable
  description := "Base URL for the " ++ d.title ++ " API"
  required := true
  example_ := some d.baseUrl

def credentialEnv (a : Auth) : EnvVar where
  name := a.envVar
  description := credentialDescription a.scheme
  required := true
  example_ := none

/-- Add the variable of some credentials, unless its name is there. -/
def addEnv (envs : List EnvVar) (a : Auth) : List EnvVar :=
  if envs.any (·.name == a.envVar) then envs else envs ++ [credentialEnv a]

def envVarsOf (d : Description) (tools : List Tool) : List EnvVar :=
  (tools.flatMap (·.handler.auth)).foldl addEnv [baseUrlEnv d]

/-- Make the names of tools distinct. -/
def withDistinctNames (tools : List Tool) : List Tool :=
  tools.zipWith (fun t name => { t with name }) (Naming.distinct (tools.map (·.name)))

/-- The tool server of a description. -/
def Config.ofDescription (d : Description) : Except Fault Config := do
  let tools ← (d.endpoints.filter (!·.deprecated)).mapM (toolOf d)
  return {
    name := Naming.serverName d.title
    version := d.version
    description := if d.description = "" then "MCP server for " ++ d.title else d.description
    baseUrl := d.baseUrl
    tools := withDistinctNames tools
    envVars := envVarsOf d tools }

end ToolServer
