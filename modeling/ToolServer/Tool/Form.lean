import ToolServer.Api.Form
import ToolServer.Document.Plain
import ToolServer.Tool.Config

/-!
# Tool servers as values

The value that a tool server is kept as, and reading it back. Parts that are absent are left out; null
inside plain data stays.
-/

namespace ToolServer

open Document Api
open Form (part partIf textList)

/-- A limit as it is written: a truth value is a number. -/
def limitValue : Scalar → Value
  | .bool b => .int (if b then 1 else 0)
  | s => .scalar s

namespace Property

/-- The parts of a tool input around those that hold other inputs. -/
def partsBefore (p : Property) : List (Scalar × Value) :=
  part "type" (.text p.type) ++ partIf "description" .text p.description ++
    partIf "enum" (fun l => .list (Value.plainItems l)) p.enum ++
    (if p.default.isNull then [] else part "default" p.default.plain)

def partsAfter (p : Property) : List (Scalar × Value) :=
  partIf "required" (fun l => .list (Value.plainItems l)) p.required ++
    partIf "minimum" limitValue p.minimum ++ partIf "maximum" limitValue p.maximum ++
    partIf "format" .text p.format

mutual
def toValue : Property → Value
  | ⟨type, description, enum, default, items, properties, required, minimum, maximum, format⟩ =>
    let p : Property := ⟨type, description, enum, default, none, none, required, minimum, maximum, format⟩
    .map (p.partsBefore ++ itemsPart items ++ propertiesPart properties ++ p.partsAfter)
def itemsPart : Option Property → List (Scalar × Value)
  | some p => part "items" (toValue p)
  | none => []
def propertiesPart : Option (List (String × Property)) → List (Scalar × Value)
  | some ps => part "properties" (.map (toValues ps))
  | none => []
def toValues : List (String × Property) → Entries
  | [] => []
  | (name, p) :: ps => (.text name, toValue p) :: toValues ps
end

/-- The parts of a tool input that hold no other inputs. -/
def ofParts? (e : Entries) : Option Property := do
  return {
    type := ← Form.field ["type"] Form.text e
    description := ← Form.optional ["description"] Form.text e
    enum := ← Form.optional ["enum"] (Form.list some) e
    default := ← Form.fieldOr ["default"] .null some e
    required := (← Form.optional ["required"] (Form.list Form.text) e).map (·.map .text)
    minimum := ← Form.optional ["minimum"] Form.number e
    maximum := ← Form.optional ["maximum"] Form.number e
    format := ← Form.optional ["format"] Form.text e }

mutual
def ofValue? : Value → Option Property
  | .map e => do
    return { ← ofParts? e with items := ← itemsIn? e, properties := ← propertiesIn? e }
  | _ => none
def itemsIn? : List (Scalar × Value) → Option (Option Property)
  | [] => some none
  | (k, v) :: rest =>
    if k == .text "items" then
      match v with
      | .null => some none
      | v => (ofValue? v).map some
    else itemsIn? rest
def propertiesIn? : List (Scalar × Value) → Option (Option (List (String × Property)))
  | [] => some none
  | (k, v) :: rest =>
    if k == .text "properties" then
      match v with
      | .null => some none
      | .map members => (ofValues? members).map some
      | _ => none
    else propertiesIn? rest
def ofValues? : List (Scalar × Value) → Option (List (String × Property))
  | [] => some []
  | (k, v) :: rest => do
    let name ← Form.text (.scalar k)
    let p ← ofValue? v
    return (name, p) :: (← ofValues? rest)
end

end Property

def InputSchema.toValue (s : InputSchema) : Value :=
  .map (part "type" (.text s.type) ++ part "properties" (.map (Property.toValues s.properties)) ++
    part "required" (textList s.required))

def InputSchema.ofEntries? (e : Entries) : Option InputSchema := do
  return {
    type := ← Form.fieldOr ["type"] "object" Form.text e
    properties := ← Form.fieldOr ["properties"] [] (Form.map Property.ofValue?) e
    required := ← Form.fieldOr ["required"] [] (Form.list Form.text) e }

def InputSchema.ofValue? : Value → Option InputSchema := Form.record InputSchema.ofEntries?

def Auth.toValue (a : Auth) : Value :=
  .map (part "scheme" (a.scheme.toValue) ++ part "envVar" (.text a.envVar))

def Auth.ofEntries? (e : Entries) : Option Auth := do
  return {
    scheme := ← Form.field ["scheme"] Scheme.ofValue? e
    envVar := ← Form.field ["envVar", "env_var"] Form.text e }

def Handler.toValue (h : Handler) : Value :=
  .map (part "method" (.text h.method) ++ part "path" (.text h.path) ++
    part "baseUrl" (.text h.baseUrl) ++ partIf "baseUrlEnvVar" .text h.baseUrlEnvVar ++
    part "contentType" (.text h.contentType) ++ part "pathParams" (textList h.pathParams) ++
    part "queryParams" (textList h.queryParams) ++ part "headerParams" (textList h.headerParams) ++
    partIf "bodyParam" .text h.bodyParam ++ part "auth" (.list (h.auth.map Auth.toValue)))

def Handler.ofEntries? (e : Entries) : Option Handler := do
  return {
    method := ← Form.field ["method"] Form.text e
    path := ← Form.field ["path"] Form.text e
    baseUrl := ← Form.field ["baseUrl", "base_url"] Form.text e
    baseUrlEnvVar := ← Form.optional ["baseUrlEnvVar", "base_url_env_var"] Form.text e
    contentType := ← Form.fieldOr ["contentType", "content_type"] "application/json" Form.text e
    pathParams := ← Form.fieldOr ["pathParams", "path_params"] [] (Form.list Form.text) e
    queryParams := ← Form.fieldOr ["queryParams", "query_params"] [] (Form.list Form.text) e
    headerParams := ← Form.fieldOr ["headerParams", "header_params"] [] (Form.list Form.text) e
    bodyParam := ← Form.optional ["bodyParam", "body_param"] Form.text e
    auth := ← Form.fieldOr ["auth"] [] (Form.list (Form.record Auth.ofEntries?)) e }

def Source.toValue (s : Source) : Value :=
  .map (part "path" (.text s.path) ++ part "method" (.text s.method) ++
    partIf "operationId" .text s.operationId)

def Source.ofEntries? (e : Entries) : Option Source := do
  return {
    path := ← Form.field ["path"] Form.text e
    method := ← Form.field ["method"] Form.text e
    operationId := ← Form.optional ["operationId", "operation_id"] Form.text e }

def Tool.toValue (t : Tool) : Value :=
  .map (part "name" (.text t.name) ++ part "description" (.text t.description) ++
    part "inputSchema" t.inputSchema.toValue ++ part "handler" t.handler.toValue ++
    part "source" t.source.toValue ++ part "enabled" (.bool t.enabled))

def Tool.ofEntries? (e : Entries) : Option Tool := do
  return {
    name := ← Form.field ["name"] Form.text e
    description := ← Form.field ["description"] Form.text e
    inputSchema := ← Form.field ["inputSchema", "input_schema"] InputSchema.ofValue? e
    handler := ← Form.field ["handler"] (Form.record Handler.ofEntries?) e
    source := ← Form.field ["source"] (Form.record Source.ofEntries?) e
    enabled := ← Form.fieldOr ["enabled"] true Form.flag e }

def EnvVar.toValue (v : EnvVar) : Value :=
  .map (part "name" (.text v.name) ++ part "description" (.text v.description) ++
    part "required" (.bool v.required) ++ partIf "example" .text v.example_)

def EnvVar.ofEntries? (e : Entries) : Option EnvVar := do
  return {
    name := ← Form.field ["name"] Form.text e
    description := ← Form.field ["description"] Form.text e
    required := ← Form.fieldOr ["required"] true Form.flag e
    example_ := ← Form.optional ["example"] Form.text e }

def Config.toValue (c : Config) : Value :=
  .map (part "name" (.text c.name) ++ part "version" (.text c.version) ++
    part "description" (.text c.description) ++ part "baseUrl" (.text c.baseUrl) ++
    part "tools" (.list (c.tools.map Tool.toValue)) ++
    part "envVars" (.list (c.envVars.map EnvVar.toValue)))

def Config.ofEntries? (e : Entries) : Option Config := do
  return {
    name := ← Form.field ["name"] Form.text e
    version := ← Form.field ["version"] Form.text e
    description := ← Form.field ["description"] Form.text e
    baseUrl := ← Form.field ["baseUrl", "base_url"] Form.text e
    tools := ← Form.fieldOr ["tools"] [] (Form.list (Form.record Tool.ofEntries?)) e
    envVars := ← Form.fieldOr ["envVars", "env_vars"] [] (Form.list (Form.record EnvVar.ofEntries?)) e }

def Config.ofValue? : Value → Option Config := Form.record Config.ofEntries?

end ToolServer
