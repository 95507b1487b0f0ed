import ToolServer.Naming
import ToolServer.Tool.Config

/-!
# Credentials

The environment variable that holds the credentials of a security scheme, and the schemes that an
operation requires.
-/

namespace ToolServer

open Api

/-- The name of the parameter that carries a key, or else of the scheme. -/
def keyName (s : Scheme) : String := (nonempty s.paramName).getD s.name

def credentialVariable (s : Scheme) : String :=
  if s.type = "http" then
    if s.scheme = some "bearer" then "API_BEARER_TOKEN"
    else if s.scheme = some "basic" then "API_BASIC_AUTH"
    else "API_HTTP_AUTH"
  else if s.type = "apiKey" then "API_KEY_" ++ Naming.envSegment (keyName s)
  else if s.type = "oauth2" then "API_OAUTH_TOKEN"
  else "API_AUTH_" ++ Naming.envSegment s.name

def credentialDescription (s : Scheme) : String :=
  if s.type = "http" then
    if s.scheme = some "bearer" then
      let format := match nonempty s.bearerFormat with
        | some f => " (" ++ f ++ ")"
        | none => ""
      "Bearer token for API authentication" ++ format
    else "HTTP " ++ (nonempty s.scheme).getD "auth" ++ " credentials"
  else if s.type = "apiKey" then
    "API key (sent as " ++ (nonempty s.location).getD "header" ++ " parameter \"" ++ keyName s ++ "\")"
  else if s.type = "oauth2" then "OAuth2 access token"
  else "Authentication for " ++ s.name

/-- The scheme of a name; of several the last. -/
def schemeNamed? (schemes : List Scheme) (name : String) : Option Scheme :=
  schemes.reverse.find? (·.name == name)

/-- The schemes that are required, each once and in the order of the requirements; a name without a
scheme requires nothing. -/
def authFor (schemes : List Scheme) : List String → List Requirement → List Auth
  | _, [] => []
  | seen, r :: rest =>
    match schemeNamed? schemes r.schemeName with
    | some s =>
      if seen.contains s.name then authFor schemes seen rest
      else ⟨s, credentialVariable s⟩ :: authFor schemes (s.name :: seen) rest
    | none => authFor schemes seen rest

def requiredAuth (requirements : List Requirement) (schemes : List Scheme) : List Auth :=
  authFor schemes [] requirements

end ToolServer
