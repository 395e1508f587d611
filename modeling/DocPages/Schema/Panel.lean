import DocPages.Html.Ids
import DocPages.Html.Tabs
import DocPages.Schema.Example
import DocPages.Schema.Row

/-!
# Panels of schemas

A schema shows as two tabs, its properties and an example. A body may come in several media types, each of
them with a schema of its own.
-/

namespace DocPages.Schema

open Html

/-- A value as a block of JSON. -/
def jsonBlock (j : Json) : Html :=
  .element .pre [] (code "language-json" (.text j.indented))

/-- The properties of a schema, those of an array's items below a note, or the schema itself if it has
neither. -/
def propertiesPanel (maxDepth : Int) (schema : Json) : Html :=
  let resolved := resolve schema
  match rows maxDepth 0 resolved with
  | [] => match child? resolved with
    | some c => div "doc-schema-array-note" (.text (typeLabel resolved))
        ++ div "doc-schema-properties" (concat (rows maxDepth 0 c))
    | none => jsonBlock schema
  | rs => div "doc-schema-properties" (concat rs)

/-- The tabs of a schema; `null` has none. -/
def block (maxDepth : Int) (schema : Json) : StateM IdSupply (Option Html) := do
  if schema.isNull then return none
  let id ← IdSupply.draw "schema"
  return some (tabStrip "doc-schema-block" id ["Params", "Example"]
    [propertiesPanel maxDepth schema, jsonBlock (exampleOf schema)])

/-- The panel of a media type. -/
def mediaPanel (maxDepth : Int) (media : Json) : StateM IdSupply Html := do
  return (← block maxDepth (media.get "schema")).getD (div "doc-schema-empty" (.text "No schema."))

/-- The media types of a body: a single one under its name, several as tabs. -/
def mediaTypes (maxDepth : Int) (content : Json) : StateM IdSupply (Option Html) := do
  match content with
  | .obj (m :: ms) =>
    let panels ← (m :: ms).mapM fun m => mediaPanel maxDepth m.2
    match panels, ms with
    | [panel], [] => return some (div "doc-media-type" (plainCode m.1) ++ panel)
    | _, _ => return some (tabStrip "doc-media-tabs" (← IdSupply.draw "media")
        ((m :: ms).map Prod.fst) panels)
  | _ => return none

end DocPages.Schema
