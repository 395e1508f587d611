import DocPages.Api.Parameters
import DocPages.Api.Responses

/-!
# Components of the API reference

The four kinds of tags that carry a JSON payload, each with the attribute that holds it and the card that
shows it. All but the responses describe the request.
-/

namespace DocPages.Api

inductive Component where
  | security | parameters | request | responses
  deriving DecidableEq

namespace Component

/-- In the order in which they are looked for. -/
def all : List Component := [security, parameters, request, responses]

def tag : Component → Text
  | security => "ApiSecurity"
  | parameters => "ApiParams"
  | request => "ApiRequest"
  | responses => "ApiResponse"

def attr : Component → Text
  | security => "security"
  | parameters => "parameters"
  | request => "requestBody"
  | responses => "responses"

/-- What a payload of this kind is called in messages. -/
def label : Component → Text
  | security => "security requirements"
  | parameters => "parameters"
  | request => "request body"
  | responses => "responses"

def isRequestPart : Component → Bool
  | responses => false
  | _ => true

/-- The card of a payload, if there is anything to show. -/
def render (c : Component) (maxDepth : Int) (payload : Json) : StateM IdSupply (Option Html) :=
  match c with
  | security => return Api.security payload
  | parameters => return Api.parameters maxDepth payload
  | request => Api.requestBody maxDepth payload
  | responses => Api.responses maxDepth payload

end Component

end DocPages.Api
