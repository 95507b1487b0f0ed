import ToolServer.Api.Records
import ToolServer.Document.Display
import ToolServer.Document.Source
import ToolServer.Reference
import ToolServer.Schema.Flatten
import ToolServer.Text.Case

/-!
# Reading descriptions

An OpenAPI document of version 3 as a description. References are resolved and compositions flattened on
the way. A document that is no such description is refused with a message; a part of it that has the
wrong form is a fault.
-/

namespace ToolServer.Api

open Document
open Reference (Memory)

/-- The methods that an operation can have, in the order in which operations are listed. -/
def methods : List String := ["get", "post", "put", "patch", "delete", "head", "options"]

def defaultTitle : String := "Untitled API"
def defaultVersion : String := "1.0.0"
def defaultBaseUrl : String := "https://api.example.com"

/-- Work on a document: it may fail, and what it has resolved until then stays known. -/
abbrev Work (α : Type) := ExceptT Fault (StateM Memory) α

/-- A step without references. -/
def plainly {α : Type} (x : Except Fault α) : Work α := ExceptT.mk (pure x)

/-- A node of the document with its references resolved. -/
def resolved (root v : Value) : Work Value :=
  ExceptT.mk fun m => let (v, m) := Reference.resolve root v m; (.ok v, m)

/-- The results of a step on the elements of a list, those without one left out. -/
def collect {α β : Type} (f : α → Work (Option β)) : List α → Work (List β)
  | [] => pure []
  | x :: xs => do
    let y ← f x
    let ys ← collect f xs
    return match y with
      | some y => y :: ys
      | none => ys

/-- The value, unless it counts as absent. -/
def orElse (v default : Value) : Value := if v.isTruthy then v else default

/-- The text of a value, or nothing for null. -/
def shown? (v : Value) : Option String := if v.isNull then none else some v.display

/-- The text of a value, or another text if it counts as absent. -/
def shownOr (default : String) (v : Value) : String := if v.isTruthy then v.display else default

def noEntries : Value := .map []

/-- The elements of a value, none if it counts as absent. -/
def elementsOr (v : Value) : Except Fault (List Value) := (orElse v (.list [])).elements

/-- The entries of a value that is asked for members, none if it counts as absent. -/
def membersOr (v : Value) : Except Fault Entries := (orElse v noEntries).members

/-- The schema of something that describes none. -/
def objectSchema : Entries := [(.text "type", .text "object")]

/-- A schema without references and compositions. -/
def schemaOf (root v : Value) : Work Entries :=
  match v with
  | .map _ => do
    match ← plainly (Schema.flatten (← resolved root v)) with
    | .map entries => return entries
    | _ => return objectSchema
  | _ => return objectSchema

def serverOf? : Value → Option Server
  | .map s => some ⟨shownOr "" (Entries.get s "url"), shown? (Entries.get s "description")⟩
  | _ => none

/-- The parts of a scheme that its type has. -/
def schemeOf (name : String) (d : Entries) : Except Fault Scheme :=
  let type := shownOr "" (Entries.get d "type")
  let plain : Scheme := { name, type, description := shown? (Entries.get d "description") }
  if type = "http" then
    let scheme := Text.lower (shownOr "" (Entries.get d "scheme"))
    .ok { plain with
      scheme := if scheme = "" then none else some scheme
      bearerFormat := shown? (Entries.get d "bearerFormat") }
  else if type = "apiKey" then
    .ok { plain with
      location := shown? (Entries.get d "in")
      paramName := shown? (Entries.get d "name") }
  else if type = "oauth2" then
    match Entries.get d "flows" with
    | .map flows => do return { plain with flows := some (← checked .scheme (textKeyed? flows)) }
    | _ => .ok plain
  else if type = "openIdConnect" then
    .ok { plain with openIdConnectUrl := shown? (Entries.get d "openIdConnectUrl") }
  else .ok plain

def schemesOf (root : Value) (raw : Entries) : Work (List Scheme) :=
  collect (fun (name, definition) => do
    match ← resolved root definition with
    | .map d => return some (← plainly (schemeOf name.display d))
    | _ => return none) raw

/-- Whether a value that should be a map of media has a text among its elements; a text has its parts. -/
def mentions (name : String) : Value → Except Fault Bool
  | .scalar (.text s) => .ok ((List.range (s.length + 1)).any fun i => name.toList.isPrefixOf (s.toList.drop i))
  | .scalar _ => .error .unsupported
  | v => do return (← v.elements).contains (.text name)

/-- The schema of the first kind of content. -/
def contentSchema (root : Value) (media : Value) : Work Entries :=
  match orElse media noEntries with
  | .map media =>
    match Entries.get? media "schema" with
    | some schema => schemaOf root schema
    | none => return [(.text "type", .text "string")]
  | v => do
    if ← plainly (mentions "schema" v) then plainly (.error .unsupported)
    else return [(.text "type", .text "string")]

/-- The schema of a parameter: its own, that of its first content, or plain text. -/
def parameterSchema (root : Value) (p : Entries) : Work Entries :=
  match Entries.get? p "schema" with
  | some schema => schemaOf root schema
  | none =>
    match Entries.get p "content" with
    | .map ((_, media) :: _) => contentSchema root media
    | _ => return [(.text "type", .text "string")]

/-- A parameter, if it is a map with a name. A parameter of the path is always required. -/
def parameterOf (root raw : Value) : Work (Option Parameter) := do
  match ← resolved root raw with
  | .map p =>
    let name := Entries.get p "name"
    if !name.isTruthy then return none
    let location := shownOr "query" (Entries.get p "in")
    let schema ← parameterSchema root p
    return some {
      name := name.display
      location
      description := shown? (Entries.get p "description")
      required := location = "path" || (Entries.get p "required").isTruthy
      schema := ← plainly (checked .parameter (textKeyed? schema))
      example_ := Entries.get p "example" }
  | _ => return none

def parametersOf (root raw : Value) : Work (List Parameter) := do
  collect (parameterOf root) (← plainly (elementsOr raw))

/-- The body of a request: its first content, whatever it is. -/
def requestBodyOf (root raw : Value) : Work (Option RequestBody) := do
  match ← resolved root raw with
  | .map body =>
    let content := orElse (Entries.get body "content") noEntries
    let first := (← plainly content.elements).head?
    let entries ← plainly content.members
    let media := match entries with
      | (_, media) :: _ => media
      | [] => .null
    let media ← plainly (membersOr media)
    let schema ← schemaOf root (orElse (Entries.get media "schema") noEntries)
    return some {
      description := shown? (Entries.get body "description")
      required := (Entries.get body "required").isTruthy
      contentType := match first with
        | some v => v.display
        | none => "application/json"
      schema := ← plainly (checked .requestBody (textKeyed? schema)) }
  | _ => return none

/-- A response: its first content, looked up by the text of its name. -/
def responseOf (root : Value) (entry : Scalar × Value) : Work (Option (String × Response)) := do
  match ← resolved root entry.2 with
  | .map r =>
    let code := entry.1.display
    let content := orElse (Entries.get r "content") noEntries
    let contentType := ((← plainly content.elements).head?).bind shown?
    let schema ← match contentType with
      | none => pure none
      | some name => do
        let media ← plainly (membersOr (Entries.get (← plainly content.members) name))
        let schema ← schemaOf root (orElse (Entries.get media "schema") noEntries)
        pure (some (← plainly (checked .response (textKeyed? schema))))
    return some (code, {
      statusCode := code
      description := shownOr "" (Entries.get r "description")
      contentType, schema })
  | _ => return none

def responsesOf (root raw : Value) : Work (List (String × Response)) := do
  return Ordered.ofPairs (← collect (responseOf root) (← plainly (membersOr raw)))

def requirementOf (entry : Scalar × Value) : Except Fault Requirement := do
  let scopes ← elementsOr entry.2
  return ⟨entry.1.display, ← checked .requirement (texts? scopes)⟩

/-- The requirements of all maps in a list. -/
def securityOf (raw : Value) : Except Fault (List Requirement) := do
  let all ← (← elementsOr raw).mapM fun
    | .map requirements => requirements.mapM requirementOf
    | _ => pure []
  return all.flatten

/-- The parameters of a path and of an operation: of those with one place and name the last counts,
where the first stood. -/
def mergeParameters (ofPath ofOperation : List Parameter) : List Parameter :=
  (Ordered.ofPairs ((ofPath ++ ofOperation).map fun p => ((p.location, p.name), p))).map (·.2)

def endpointOf (doc : Entries) (path method : String) (ofPath : List Parameter) (o : Entries) :
    Work Endpoint := do
  let root := Value.map doc
  let parameters ← parametersOf root (Entries.get o "parameters")
  let body := Entries.get o "requestBody"
  let requestBody ← if body.isTruthy then requestBodyOf root body else pure none
  let security := (Entries.get? o "security").getD (Entries.get doc "security")
  let tags ← plainly (elementsOr (Entries.get o "tags"))
  let responses ← responsesOf root (Entries.get o "responses")
  return {
    path, method
    operationId := shown? (Entries.get o "operationId")
    summary := shown? (Entries.get o "summary")
    description := shown? (Entries.get o "description")
    tags := tags.map (·.display)
    parameters := mergeParameters ofPath parameters
    requestBody, responses
    security := ← plainly (securityOf security)
    deprecated := (Entries.get o "deprecated").isTruthy }

/-- The operations of a path, in the order of the methods. -/
def pathEndpoints (doc : Entries) (entry : Scalar × Value) : Work (List Endpoint) := do
  match ← resolved (.map doc) entry.2 with
  | .map item =>
    let ofPath ← parametersOf (.map doc) (Entries.get item "parameters")
    collect (fun method => do
      match Entries.get item method with
      | .map o => return some (← endpointOf doc entry.1.display method ofPath o)
      | _ => return none) methods
  | _ => return []

def namedSchema (root : Value) (entry : Scalar × Value) : Work (Option (String × Entries)) := do
  return some (entry.1.display, ← schemaOf root entry.2)

/-- The description in a document with the given paths. -/
def descriptionOf (doc paths : Entries) : Work Description := do
  let root := Value.map doc
  let info := orElse (Entries.get doc "info") noEntries
  let servers := (← plainly (elementsOr (Entries.get doc "servers"))).filterMap serverOf?
  let components ← plainly (membersOr (Entries.get doc "components"))
  let schemes ← schemesOf root (← plainly (membersOr (Entries.get components "securitySchemes")))
  let schemas ← collect (namedSchema root) (← plainly (membersOr (Entries.get components "schemas")))
  let endpoints ← collect (fun entry => some <$> pathEndpoints doc entry) paths
  let info ← plainly info.members
  let checkedSchema (s : String × Entries) : Option (String × Entries) := (textKeyed? s.2).map (s.1, ·)
  let url := ((servers.head?).map (·.url)).getD ""
  return {
    title := shownOr defaultTitle (Entries.get info "title")
    description := shownOr "" (Entries.get info "description")
    version := shownOr defaultVersion (Entries.get info "version")
    baseUrl := if url = "" then defaultBaseUrl else url
    servers
    endpoints := endpoints.flatten
    schemes
    schemas := ← plainly (checked .description ((Ordered.ofPairs schemas).mapM checkedSchema)) }

/-- What a text was read as: a description with warnings, or why it is none. -/
inductive ParseResult
  | parsed (description : Description) (warnings : List String)
  | refused (path message : String)
deriving Repr

def noEndpoints : String :=
  "No endpoints found in the spec. The generated MCP server will have no tools."

/-- The warnings about a description: that it is empty, and those from references. -/
def warningsFor (d : Description) (m : Memory) : List String :=
  (if d.endpoints.isEmpty then [noEndpoints] else []) ++ m.warnings.map (·.message)

/-- Why a document cannot be a description, or its paths. -/
def checkDocument (doc : Entries) : Except (String × String) Entries :=
  let version := shownOr "" (Entries.get doc "openapi")
  if !"3.".toList.isPrefixOf version.toList then
    .error ("openapi", match Entries.get? doc "swagger" with
      | some v => "Swagger " ++ v.display ++
          " documents are not supported. Convert to OpenAPI 3.0 or 3.1 first."
      | none => "Unsupported OpenAPI version: \"" ++ version ++ "\". OpenAPI 3.0 or 3.1 is required.")
  else match Entries.get? doc "paths" with
    | some (.map paths) => .ok paths
    | some .null => .ok []
    | _ => .error ("paths", "Missing or invalid 'paths' object")

/-- Read a loaded document; also gives what was resolved, up to a fault if there is one. -/
def parseDocument (doc : Value) : Except Fault ParseResult × Memory :=
  match doc with
  | .map doc =>
    match checkDocument doc with
    | .error (path, message) => (.ok (.refused path message), .empty)
    | .ok paths =>
      match (descriptionOf doc paths).run .empty with
      | (.ok d, m) => (.ok (.parsed d (warningsFor d m)), m)
      | (.error f, m) => (.error f, m)
  | _ => (.ok (.refused "" "Failed to parse input: document root must be a mapping"), .empty)

/-- Read a text, with what was resolved. -/
def parseWith (text : String) : Except Fault ParseResult × Memory :=
  match load text with
  | .ok doc => parseDocument doc
  | .error (.refused reason) => (.ok (.refused "" ("Failed to parse input: " ++ reason)), .empty)
  | .error (.fault f) => (.error f, .empty)

/-- Read a text as a description. -/
def parse (text : String) : Except Fault ParseResult := (parseWith text).1

end ToolServer.Api
