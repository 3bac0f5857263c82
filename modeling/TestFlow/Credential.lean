import TestFlow.Json.Decode
import TestFlow.Request
import TestFlow.Text.Basic

/-!
# Credentials

Three kinds of components put credentials on the requests that follow: a bearer token, a user name
with a password, and a key that goes into a header or a query parameter.

Reference: specification, §3.1 (payload fields) and §4.3 (auth).

## Main definitions

* `BearerToken`, `UserPassword`, `ApiKey` — the three payloads, each with its `shape` and its
  `draft`;
* `KeyLocation` — where a key goes.
-/

namespace TestFlow

/-! ## Payloads -/

open Json (DecodeError Shape)

structure BearerToken where
  token : Option String

def BearerToken.shape : Shape BearerToken where
  name := "BearerAuthConfig"
  empty := ⟨none⟩
  slots := [.of "token" [] Json.text? fun s credential => { credential with token := s }]

structure UserPassword where
  username : Option String
  password : Option String

/-- The fields that the payload of a user name and password may have. -/
def UserPassword.shape : Shape UserPassword where
  name := "BasicAuthConfig"
  empty := ⟨none, none⟩
  slots := [
    .of "username" [] Json.text? fun s credential => { credential with username := s },
    .of "password" [] Json.text? fun s credential => { credential with password := s }]

/-- Where on a request a key goes. -/
inductive KeyLocation where
  | header
  | query
  deriving DecidableEq, Repr

namespace KeyLocation

def all : List KeyLocation :=
  [.header, .query]

def name : KeyLocation → String
  | .header => "header"
  | .query => "query"

def ofName (name : String) : Except DecodeError KeyLocation :=
  match all.find? fun location => location.name = name with
  | some location => .ok location
  | none => .error (.mismatch (.unknownChoice name (all.map KeyLocation.name)))

/-- Decodes a location: its name, or an object with the name as its only key and null under it. -/
def decode : Json → Except DecodeError KeyLocation
  | .string name => ofName name
  | .object [(name, v)] => do
    let location ← ofName name
    match v with
    | .null => .ok location
    | v => .error (.mismatch (.wrongType v.found .unit))
  | .object _ => .error (.mismatch .notOneKey)
  | v => .error (.mismatch (.wrongType v.found .choice))

end KeyLocation

/-- A key, with the name of the header or query parameter it goes into. -/
structure ApiKey where
  name : Option String
  value : Option String
  location : KeyLocation

def ApiKey.shape : Shape ApiKey where
  name := "ApiKeyAuthConfig"
  empty := ⟨none, none, .header⟩
  slots := [
    .of "keyName" ["headerName"] Json.text? fun s key => { key with name := s },
    .of "keyValue" ["apiKey"] Json.text? fun s key => { key with value := s },
    .of "location" ["addTo"] KeyLocation.decode fun location key =>
      { key with location := location }]

/-!
## Steps of credentials

Each credential is one step that sets a header or a query parameter.  A credential that lacks one of
its parts is reported instead.
-/

/-- The draft that sets the authorization header. -/
def authorization (value : String) : Draft :=
  .instruction .and ("header Authorization = " ++ Script.quote value)

def BearerToken.draft (credential : BearerToken) : Draft :=
  match credential.token with
  | some token => authorization ("Bearer " ++ token)
  | none => .notice "Bearer auth is missing a token"

/-- The draft of a user name and password, which are joined by a colon and written in Base64. -/
def UserPassword.draft (credential : UserPassword) : Draft :=
  match credential.username, credential.password with
  | some username, some password =>
    authorization ("Basic " ++ Text.Base64.ofString (username ++ ":" ++ password))
  | _, _ => .notice "Basic auth requires both a username and a password"

/-- The words that set a key in its place. -/
def KeyLocation.words : KeyLocation → EntryWords
  | .header => headerWords
  | .query => paramWords

namespace ApiKey

/-- The name of a key that has none. -/
def defaultName : String := "X-API-Key"

/-- The draft of a key, which is set as an entry of the headers or of the query parameters is. -/
def draft (key : ApiKey) : Draft :=
  match key.value with
  | none => .notice "API key auth is missing a key value"
  | some value =>
    let name := key.name.getD defaultName
    if Text.isToken name then .instruction .and (key.location.words.setting name value)
    else .notice ("API key name '" ++ name ++ "' is not a valid " ++ target key.location ++ " name")
where
  /-- How a message calls what a key is put into. -/
  target : KeyLocation → String
    | .header => "header"
    | .query => "query parameter"

end ApiKey

end TestFlow
