import DocPages.Api.Security

/-!
# Parameter cards

One card for each place where parameters occur, in a fixed order, with a row for each parameter.
-/

namespace DocPages.Api

open Html

inductive Location where
  | path | query | header | cookie
  deriving DecidableEq

namespace Location

/-- In the order of display. -/
def all : List Location := [path, query, header, cookie]

def name : Location → Text
  | path => "path"
  | query => "query"
  | header => "header"
  | cookie => "cookie"

def title : Location → Text
  | path => "Path Parameters"
  | query => "Query Parameters"
  | header => "Headers"
  | cookie => "Cookies"

end Location

/-- The place of a parameter, the query if it names none. Entries without a name or with another place have
none. -/
def location? (param : Json) : Option Location :=
  if (param.get "name").isTruthy then
    match param.member? "in" with
    | none => some .query
    | some (.str place) => Location.all.find? fun l => l.name == place
    | some _ => none
  else none

/-- The row of a parameter. Those of the path are always required. -/
def paramRow (maxDepth : Int) (param : Json) : Html :=
  let schema := match param.get "schema" with
    | .obj ms => .obj ms
    | _ => .obj []
  Schema.propertyRow maxDepth 0 (param.get "name").display schema
    ((param.get "required").isTruthy || location? param == some .path)
    ((param.get "description").orElse (schema.get "description"))
    (some (param.get "deprecated").isTruthy)

def paramCard (maxDepth : Int) (place : Location) (params : List Json) : Html :=
  card ("doc-api-params-" ++ place.name)
    (span "doc-api-card-title" (.text place.title)
      ++ span "doc-api-card-count" (.text (Text.ofNat params.length)))
    (div "doc-schema-properties" (concat (params.map (paramRow maxDepth))))

/-- The cards of all places that have parameters. -/
def paramCards (maxDepth : Int) (params : List Json) : List Html :=
  Location.all.filterMap fun place =>
    match params.filter fun p => location? p == some place with
    | [] => none
    | ps => some (paramCard maxDepth place ps)

def parameters (maxDepth : Int) (params : Json) : Option Html :=
  match paramCards maxDepth (params.items?.getD []) with
  | [] => none
  | cards => some (div "doc-api-params" (concat cards))

end DocPages.Api
