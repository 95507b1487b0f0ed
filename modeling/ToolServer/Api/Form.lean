import ToolServer.Api.Description
import ToolServer.Document.Plain
import ToolServer.Form

/-!
# Descriptions as values

A description that is kept as a value, read back. Each part has a name with capital letters inside it
and one with underscores.
-/

namespace ToolServer.Api

open Document
open Form (part partIf)

def Scheme.ofEntries? (e : Entries) : Option Scheme := do
  return {
    name := ← Form.field ["name"] Form.text e
    type := ← Form.field ["type"] Form.text e
    scheme := ← Form.optional ["scheme"] Form.text e
    bearerFormat := ← Form.optional ["bearerFormat", "bearer_format"] Form.text e
    location := ← Form.optional ["in", "location"] Form.text e
    paramName := ← Form.optional ["paramName", "param_name"] Form.text e
    flows := ← Form.optional ["flows"] Form.plainMap e
    openIdConnectUrl := ← Form.optional ["openIdConnectUrl", "open_id_connect_url"] Form.text e
    description := ← Form.optional ["description"] Form.text e }

def Server.ofEntries? (e : Entries) : Option Server := do
  return {
    url := ← Form.field ["url"] Form.text e
    description := ← Form.optional ["description"] Form.text e }

def Requirement.ofEntries? (e : Entries) : Option Requirement := do
  return {
    schemeName := ← Form.field ["schemeName", "scheme_name"] Form.text e
    scopes := ← Form.fieldOr ["scopes"] [] (Form.list Form.text) e }

def Parameter.ofEntries? (e : Entries) : Option Parameter := do
  return {
    name := ← Form.field ["name"] Form.text e
    location := ← Form.fieldOr ["in", "location"] "query" Form.text e
    description := ← Form.optional ["description"] Form.text e
    required := ← Form.fieldOr ["required"] false Form.flag e
    schema := ← Form.fieldOr ["schema", "schema_object"] [(.text "type", .text "string")] Form.plainMap e
    example_ := ← Form.fieldOr ["example"] .null some e }

def RequestBody.ofEntries? (e : Entries) : Option RequestBody := do
  return {
    description := ← Form.optional ["description"] Form.text e
    required := ← Form.fieldOr ["required"] false Form.flag e
    contentType := ← Form.fieldOr ["contentType", "content_type"] "application/json" Form.text e
    schema := ← Form.fieldOr ["schema", "schema_object"] [] Form.plainMap e }

def Response.ofEntries? (e : Entries) : Option Response := do
  return {
    statusCode := ← Form.field ["statusCode", "status_code"] Form.text e
    description := ← Form.fieldOr ["description"] "" Form.text e
    contentType := ← Form.optional ["contentType", "content_type"] Form.text e
    schema := ← Form.optional ["schema", "schema_object"] Form.plainMap e }

def Endpoint.ofEntries? (e : Entries) : Option Endpoint := do
  return {
    path := ← Form.field ["path"] Form.text e
    method := ← Form.field ["method"] Form.text e
    operationId := ← Form.optional ["operationId", "operation_id"] Form.text e
    summary := ← Form.optional ["summary"] Form.text e
    description := ← Form.optional ["description"] Form.text e
    tags := ← Form.fieldOr ["tags"] [] (Form.list Form.text) e
    parameters := ← Form.fieldOr ["parameters"] [] (Form.list (Form.record Parameter.ofEntries?)) e
    requestBody := ← Form.optional ["requestBody", "request_body"] (Form.record RequestBody.ofEntries?) e
    responses := ← Form.fieldOr ["responses"] [] (Form.map (Form.record Response.ofEntries?)) e
    security := ← Form.fieldOr ["security"] [] (Form.list (Form.record Requirement.ofEntries?)) e
    deprecated := ← Form.fieldOr ["deprecated"] false Form.flag e }

def Description.ofEntries? (e : Entries) : Option Description := do
  return {
    title := ← Form.field ["title"] Form.text e
    description := ← Form.fieldOr ["description"] "" Form.text e
    version := ← Form.fieldOr ["version"] "1.0.0" Form.text e
    baseUrl := ← Form.field ["baseUrl", "base_url"] Form.text e
    servers := ← Form.fieldOr ["servers"] [] (Form.list (Form.record Server.ofEntries?)) e
    endpoints := ← Form.fieldOr ["endpoints"] [] (Form.list (Form.record Endpoint.ofEntries?)) e
    schemes := ← Form.fieldOr ["securitySchemes", "security_schemes"] []
      (Form.list (Form.record Scheme.ofEntries?)) e
    schemas := ← Form.fieldOr ["schemas"] [] (Form.map Form.plainMap) e }

def Scheme.ofValue? : Value → Option Scheme := Form.record Scheme.ofEntries?
def Endpoint.ofValue? : Value → Option Endpoint := Form.record Endpoint.ofEntries?
def Description.ofValue? : Value → Option Description := Form.record Description.ofEntries?

def Scheme.toValue (s : Scheme) : Value :=
  .map (part "name" (.text s.name) ++ part "type" (.text s.type) ++ partIf "scheme" .text s.scheme ++
    partIf "bearerFormat" .text s.bearerFormat ++ partIf "in" .text s.location ++
    partIf "paramName" .text s.paramName ++
    partIf "flows" (fun entries => (Value.map entries).plain) s.flows ++
    partIf "openIdConnectUrl" .text s.openIdConnectUrl ++ partIf "description" .text s.description)

end ToolServer.Api
