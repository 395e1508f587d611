import DocPages.Html.Basic
import DocPages.Schema.Label

/-!
# Rows of properties

Each property of an object is a row, and the properties of its own schema are rows inside it, down to a
greatest depth. Numbers of depth may be negative; what counts is how many levels are left.
-/

namespace DocPages.Schema

open Html

/-- What a row shows besides its schema. -/
structure RowHead where
  name : Text
  required : Bool
  deprecated : Bool
  description : Json
  depth : Int

def badge (kind : Text) : Html := span ("doc-badge doc-badge-" ++ kind) (.text kind)

def rowHeader (head : RowHead) (schema : Json) : Html :=
  let label := typeLabel schema
  div "doc-schema-property-header"
    (code "doc-schema-property-name" (.text head.name)
      ++ when (!label.isEmpty) (span "doc-schema-property-type" (.text label))
      ++ badge (if head.required then "required" else "optional")
      ++ when head.deprecated (badge "deprecated"))

def listed (schema : Json) : List Json := ((schema.member? "enum").bind Json.items?).getD []

def plainCode (t : Text) : Html := .element .code [] (.text t)

def plainSpan (t : Text) : Html := .element .span [] (.text t)

def rowBody (head : RowHead) (schema : Json) : Html :=
  let limits := constraints schema
  let values := listed schema
  when head.description.isTruthy
      (div "doc-schema-property-description" (.text head.description.display))
    ++ when (!limits.isEmpty)
      (div "doc-schema-property-constraints"
        (concat (limits.map fun c => span "doc-constraint" (.text c))))
    ++ when (!values.isEmpty)
      (div "doc-schema-property-enum"
        (plainSpan "Allowed values:" ++ .text " "
          ++ concat (values.map fun v => code "doc-enum-value" (.text (valueText v)))))
    ++ match schema.member? "default" with
      | some v => div "doc-schema-property-default"
          (plainSpan "Default:" ++ .text " " ++ plainCode (valueText v))
      | none => .empty

/-- A row of a resolved schema around the rows of its children. -/
def row (head : RowHead) (schema : Json) (children : List Html) : Html :=
  let nested := !children.isEmpty
  .element .div
    [.cls (if nested then "doc-schema-property has-children" else "doc-schema-property"),
     .fixed "data-depth" (Text.ofInt head.depth)]
    (rowHeader head schema ++ rowBody head schema
      ++ when nested
        (.element .details [.cls "doc-schema-children", .flag "open"]
          (.element .summary [] (.text "Child attributes")
            ++ div "doc-schema-properties" (concat children))))

/-- A schema that is no object shows as an empty one. -/
def rowSchema (schema : Json) : Json :=
  match resolve schema with
  | .obj ms => .obj ms
  | _ => .obj []

/-- The properties of a schema with the marks of those that are required. -/
def flaggedProperties (schema : Json) : List (Text × Json × Bool) :=
  match resolve schema with
  | .obj ms =>
    let isRequired (name : Text) : Bool := (required ms).any fun
      | .str r => r == name
      | _ => false
    ((properties? ms).getD []).map fun (name, p) => (name, p, isRequired name)
  | _ => []

/-- The row of a property of an object. -/
def propertyHead (name : Text) (schema : Json) (required : Bool) (depth : Int) : RowHead :=
  ⟨name, required, (schema.get "deprecated").isTruthy, schema.get "description", depth⟩

/-- The rows of a schema's properties, with as many levels as are left. -/
def rowsWithin : (levels : Nat) → (depth : Int) → Json → List Html
  | 0, _, _ => []
  | levels + 1, depth, schema => (flaggedProperties schema).map fun (name, p, required) =>
    let p := rowSchema p
    row (propertyHead name p required depth) p
      (match child? p with
        | some c => rowsWithin levels (depth + 1) c
        | none => [])

/-- The rows of a schema's properties from a depth down to the greatest. -/
def rows (maxDepth depth : Int) (schema : Json) : List Html :=
  rowsWithin (maxDepth + 1 - depth).toNat depth schema

/-- A row by itself. A description or a mark that is given replaces that of the schema. -/
def propertyRow (maxDepth depth : Int) (name : Text) (schema : Json) (required : Bool)
    (description : Json) (deprecated : Option Bool) : Html :=
  let schema := rowSchema schema
  let head := propertyHead name schema required depth
  row { head with
      description := if description.isNull then head.description else description
      deprecated := deprecated.getD head.deprecated }
    schema
    (match child? schema with
      | some c => rows maxDepth (depth + 1) c
      | none => [])

end DocPages.Schema
