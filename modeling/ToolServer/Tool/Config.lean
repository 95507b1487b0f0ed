import ToolServer.Api.Description

/-!
# Tool servers

A tool server as a set of tools, each with a flat schema of inputs and a handler that says how it calls
the interface, and the environment variables that the server reads.
-/

namespace ToolServer

open Document

/-- One tool input. Absent parts are `none`, and null is no default. -/
structure Property where
  type : String
  description : Option String := none
  enum : Option (List Value) := none
  default : Value := .null
  items : Option Property := none
  properties : Option (List (String × Property)) := none
  required : Option (List Value) := none
  minimum : Option Scalar := none
  maximum : Option Scalar := none
  format : Option String := none
deriving Repr, Inhabited

structure InputSchema where
  type : String := "object"
  properties : List (String × Property)
  required : List String
deriving Repr

/-- A scheme and the variable that holds its credentials. -/
structure Auth where
  scheme : Api.Scheme
  envVar : String
deriving Repr

/-- The body parameter that stands for all inputs that go nowhere else. -/
def bodyObject : String := "__body_object__"

def baseUrlVariable : String := "API_BASE_URL"

structure Handler where
  method : String
  path : String
  baseUrl : String
  baseUrlEnvVar : Option String
  contentType : String
  pathParams : List String
  queryParams : List String
  headerParams : List String
  bodyParam : Option String
  auth : List Auth
deriving Repr

/-- A text that counts: present and not empty. -/
def nonempty (s : Option String) : Option String := s.filter (· != "")

/-- The variable that the handler reads its base address from. -/
def Handler.baseUrlName (h : Handler) : String := (nonempty h.baseUrlEnvVar).getD baseUrlVariable

structure Source where
  path : String
  method : String
  operationId : Option String
deriving Repr

structure Tool where
  name : String
  description : String
  inputSchema : InputSchema
  handler : Handler
  source : Source
  enabled : Bool
deriving Repr

structure EnvVar where
  name : String
  description : String
  required : Bool
  example_ : Option String
deriving Repr

structure Config where
  name : String
  version : String
  description : String
  baseUrl : String
  tools : List Tool
  envVars : List EnvVar
deriving Repr

/-- The tools that the server offers. -/
def Config.enabledTools (c : Config) : List Tool := c.tools.filter (·.enabled)

end ToolServer
