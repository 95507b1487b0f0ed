import ToolServer.Document.Value

/-!
# Descriptions of interfaces

An HTTP interface as its description tells it: servers, operations with parameters, body, responses and
security, and named schemas. Schemas are maps without references and compositions.
-/

namespace ToolServer.Api

open Document

structure Server where
  url : String
  description : Option String
deriving Repr

/-- How a caller proves who it is. Which of the optional parts count depends on the type. -/
structure Scheme where
  name : String
  type : String
  scheme : Option String := none
  bearerFormat : Option String := none
  location : Option String := none
  paramName : Option String := none
  flows : Option Entries := none
  openIdConnectUrl : Option String := none
  description : Option String := none
deriving Repr

structure Requirement where
  schemeName : String
  scopes : List String
deriving Repr

structure Parameter where
  name : String
  location : String
  description : Option String
  required : Bool
  schema : Entries
  example_ : Value
deriving Repr

structure RequestBody where
  description : Option String
  required : Bool
  contentType : String
  schema : Entries
deriving Repr

structure Response where
  statusCode : String
  description : String
  contentType : Option String
  schema : Option Entries
deriving Repr

structure Endpoint where
  path : String
  method : String
  operationId : Option String
  summary : Option String
  description : Option String
  tags : List String
  parameters : List Parameter
  requestBody : Option RequestBody
  responses : List (String × Response)
  security : List Requirement
  deprecated : Bool
deriving Repr

structure Description where
  title : String
  description : String
  version : String
  baseUrl : String
  servers : List Server
  endpoints : List Endpoint
  schemes : List Scheme
  schemas : List (String × Entries)
deriving Repr

end ToolServer.Api
