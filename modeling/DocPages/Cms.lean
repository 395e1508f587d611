import DocPages.Json.Reader
import DocPages.Settings

/-!
# The content store

Documents are fetched by id or by path. A request and what the store replies are values, so a fetch is a
function of the reply: it gives a document or none, and a warning when the reply could not be used.
-/

namespace DocPages.Cms

structure Request where
  url : Text
  query : Keyed Text
  /-- Seconds to wait for the reply. -/
  timeout : Nat := 15
  deriving DecidableEq

inductive Reply where
  | answer (status : Nat) (reason body : Text)
  /-- The request failed. -/
  | failure (message : Text)
  /-- The request went through, but the reply could not be read. -/
  | garbled (message : Text)

inductive Trouble where
  | failure (message : Text)
  | garbled (message : Text)
  deriving DecidableEq

def Trouble.warning (url : Text) : Trouble → Text
  | failure message => "    Warning: Failed to fetch " ++ url ++ ": " ++ message ++ "\n"
  | garbled message => "    Warning: Invalid JSON from " ++ url ++ ": " ++ message ++ "\n"

/-- The headers of every request; the key of the store is sent in two forms. -/
def headers (s : Settings) : Keyed Text :=
  let key : Keyed Text :=
    if s.apiKey.isEmpty then [] else [("Authorization", "Bearer " ++ s.apiKey), ("x-api-key", s.apiKey)]
  ("User-Agent", "docforge-render") :: ("Accept", "application/json")
    :: ("Content-Type", "application/json") :: key

def documentsUrl (s : Settings) : Text := dropSlashes s.cmsUrl ++ "/api/documents"

def requestById (s : Settings) (id : Text) : Request := { url := documentsUrl s ++ '/' :: id, query := [] }

def requestByPath (s : Settings) (path : Text) : Request :=
  { url := documentsUrl s, query := [("path", path)] }

/-- Who is to blame for a status of failure. -/
def blame? (status : Nat) : Option Text :=
  if 400 ≤ status ∧ status < 500 then some "Client"
  else if 500 ≤ status ∧ status < 600 then some "Server"
  else none

/-- The JSON value that a reply carries. -/
def Reply.json (url : Text) : Reply → Except Trouble Json
  | failure message => .error (.failure message)
  | garbled message => .error (.garbled message)
  | answer status reason body => match blame? status with
    | some who =>
      .error (.failure (Text.ofNat status ++ ' ' :: who ++ " Error: " ++ reason ++ " for url: " ++ url))
    | none => match Json.parse? body with
      | some j => .ok j
      | none => .error (.failure "Expecting value: line 1 column 1 (char 0)")

/-- The document in the answer to a request by id. -/
def documentById? (j : Json) : Option Members := (j.get "document").members?

/-- The document in the answer to a request by path: the only one, or else the first of a list. -/
def documentByPath? (j : Json) : Option Members :=
  (documentById? j).or (do (← (← (j.get "documents").items?).head?).members?)

structure Fetched where
  document : Option Members
  warning : Text

/-- What a reply to a request amounts to, where `document?` finds the document in it. -/
def Reply.fetched (reply : Reply) (request : Request) (document? : Json → Option Members) : Fetched :=
  match reply.json request.url with
  | .ok j => ⟨document? j, []⟩
  | .error trouble => ⟨none, trouble.warning request.url⟩

end DocPages.Cms
