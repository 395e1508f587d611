import DocPages.Api.Request

/-!
# Response cards

One item for each status code, in the order of the codes as texts, whatever the order of the payload.
-/

namespace DocPages.Api

open Html

def goodPhrases : Keyed Text :=
  [("100", "Continue"), ("101", "Switching Protocols"), ("102", "Processing"), ("103", "Early Hints"),
   ("200", "OK"), ("201", "Created"), ("202", "Accepted"),
   ("203", "Non-Authoritative Information"), ("204", "No Content"), ("205", "Reset Content"),
   ("206", "Partial Content"), ("207", "Multi-Status"), ("208", "Already Reported"),
   ("226", "IM Used"),
   ("300", "Multiple Choices"), ("301", "Moved Permanently"), ("302", "Found"), ("303", "See Other"),
   ("304", "Not Modified"), ("305", "Use Proxy"), ("307", "Temporary Redirect"),
   ("308", "Permanent Redirect")]

def clientFaultPhrases : Keyed Text :=
  [("400", "Bad Request"), ("401", "Unauthorized"), ("402", "Payment Required"), ("403", "Forbidden"),
   ("404", "Not Found"), ("405", "Method Not Allowed"), ("406", "Not Acceptable"),
   ("407", "Proxy Authentication Required"), ("408", "Request Timeout"), ("409", "Conflict"),
   ("410", "Gone"), ("411", "Length Required"), ("412", "Precondition Failed"),
   ("413", "Request Entity Too Large"), ("414", "Request-URI Too Long"),
   ("415", "Unsupported Media Type"), ("416", "Requested Range Not Satisfiable"),
   ("417", "Expectation Failed"), ("418", "I'm a Teapot"), ("421", "Misdirected Request"),
   ("422", "Unprocessable Entity"), ("423", "Locked"), ("424", "Failed Dependency"),
   ("425", "Too Early"), ("426", "Upgrade Required"), ("428", "Precondition Required"),
   ("429", "Too Many Requests"), ("431", "Request Header Fields Too Large"),
   ("451", "Unavailable For Legal Reasons")]

def serverFaultPhrases : Keyed Text :=
  [("500", "Internal Server Error"), ("501", "Not Implemented"), ("502", "Bad Gateway"),
   ("503", "Service Unavailable"), ("504", "Gateway Timeout"), ("505", "HTTP Version Not Supported"),
   ("506", "Variant Also Negotiates"), ("507", "Insufficient Storage"), ("508", "Loop Detected"),
   ("510", "Not Extended"), ("511", "Network Authentication Required")]

/-- The words that go with the registered status codes. -/
def statusPhrase (code : Text) : Text :=
  (Keyed.get? (goodPhrases ++ clientFaultPhrases ++ serverFaultPhrases) code).getD []

/-- The class of a status code, told by its first digit. -/
def statusClass : Text → Text
  | c :: _ => if '1' ≤ c ∧ c ≤ '5' then c :: "xx" else "default"
  | [] => "default"

/-- The row of a response header. -/
def headerRow (name : Text) (header : Json) : Html :=
  let schema := Schema.resolve (header.get "schema")
  let label := Schema.typeLabel schema
  let description := (header.get "description").orElse (schema.get "description")
  div "doc-api-response-header-row"
    (code "doc-api-header-name" (.text name)
      ++ when (!label.isEmpty) (span "doc-schema-property-type" (.text label))
      ++ when description.isTruthy (span "doc-api-header-description" (.text description.display)))

def responseHeaders (headers : Json) : Option Html :=
  match headers with
  | .obj (m :: ms) => some (div "doc-api-response-headers"
      (div "doc-api-subsection-title" (.text "Headers")
        ++ concat ((m :: ms).map fun (name, header) => headerRow name header)))
  | _ => none

def response (maxDepth : Int) (code : Text) (response : Json) : StateM IdSupply Html := do
  let status := "status-" ++ statusClass code
  let description := response.get "description"
  let header := span ("doc-api-status-badge " ++ status) (.text code)
    ++ span "doc-api-status-text" (.text (statusPhrase code))
    ++ when description.isTruthy
      (span "doc-api-response-description" (.text description.display))
  let content ← Schema.mediaTypes maxDepth (response.get "content")
  match content, responseHeaders (response.get "headers") with
  | none, none =>
    return div ("doc-api-response " ++ status) (div "doc-api-response-header" header)
  | content, headers =>
    return .element .details [.cls ("doc-api-response " ++ status), .flag "open"]
      (.element .summary [.cls "doc-api-response-header"] header
        ++ div "doc-api-response-body" (content.getD .empty ++ headers.getD .empty))

def responses (maxDepth : Int) (all : Json) : StateM IdSupply (Option Html) := do
  match all with
  | .obj (m :: ms) =>
    let items ← (Keyed.sorted (m :: ms)).mapM fun (code, r) => response maxDepth code r
    return some (div "doc-api-responses"
      (div "doc-api-section-title" (.text "Responses") ++ concat items))
  | _ => return none

end DocPages.Api
