import DocPages.Html.Icon
import DocPages.Json.Display
import DocPages.Schema.Row

/-!
# Security cards

One card for each scheme of each requirement, with the header that the scheme calls for.
-/

namespace DocPages.Api

open Html

/-- A collapsible card. -/
def card (cls : Text) (title body : Html) : Html :=
  .element .details [.cls ("doc-api-card " ++ cls), .flag "open"]
    (.element .summary [.cls "doc-api-card-header"] title ++ div "doc-api-card-body" body)

structure AuthHeader where
  name : Text
  sample : Text

def bearer : AuthHeader := ⟨"Authorization", "Bearer <token>"⟩

def apiKey : AuthHeader := ⟨"X-API-Key", "<api-key>"⟩

def basic : AuthHeader := ⟨"Authorization", "Basic <base64(username:password)>"⟩

def oauth : AuthHeader := ⟨"Authorization", "Bearer <access-token>"⟩

/-- The headers of well-known schemes. -/
def authHeaders : Keyed AuthHeader :=
  [("bearerAuth", bearer), ("BearerAuth", bearer), ("bearer", bearer),
   ("jwt", ⟨"Authorization", "Bearer <jwt>"⟩),
   ("apiKey", apiKey), ("ApiKeyAuth", apiKey), ("api_key", apiKey),
   ("basicAuth", basic), ("BasicAuth", basic),
   ("oauth2", oauth), ("OAuth2", oauth)]

def authLabel (t : Text) : Html := span "doc-api-auth-label" (.text t)

def schemeCard (scheme : Text) (scopes : Json) : Html :=
  let header := (authHeaders.get? scheme).getD bearer
  let chips := scopes.items?.getD []
  card "doc-api-security-card"
    (span "doc-api-card-icon" Icon.lock
      ++ span "doc-api-card-title" (.text "Authorization")
      ++ code "doc-api-scheme-name" (.text scheme))
    (div "doc-api-auth-header" (authLabel "Header" ++ Schema.plainCode header.name)
      ++ div "doc-api-auth-example"
        (authLabel "Example" ++ Schema.plainCode (header.name ++ ": " ++ header.sample))
      ++ when (!chips.isEmpty)
        (div "doc-api-scopes"
          (authLabel "Scopes"
            ++ concat (chips.map fun s => code "doc-api-scope" (.text s.displayed)))))

/-- The schemes of all requirements with their scopes; a requirement may stand by itself. -/
def schemes : Json → List (Text × Json)
  | .obj ms => ms
  | .arr rs => rs.flatMap fun r => r.members?.getD []
  | _ => []

def security (requirements : Json) : Option Html :=
  match schemes requirements with
  | [] => none
  | ss => some (div "doc-api-security" (concat (ss.map fun (s, scopes) => schemeCard s scopes)))

end DocPages.Api
