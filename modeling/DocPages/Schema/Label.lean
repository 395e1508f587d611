import DocPages.Json.Display
import DocPages.Schema.Resolve

/-!
# Labels of schemas

What a row says about a schema in words: its type, its constraints and the form in which its values are
shown. An array is described by its items.
-/

namespace DocPages.Schema

/-- The resolved items of an array. -/
def items (ms : Members) : Json := resolve ((Keyed.get? ms "items").getD .null)

/-- The type as a value; several are joined by bars. -/
def typeValue (ms : Members) : Json :=
  match (Keyed.get? ms "type").getD .null with
  | .arr ts => .str (Text.join " | " (ts.map Json.display))
  | t => t

def isArrayName : Json → Bool
  | .str t => t == "array".toList
  | _ => false

/-- The type in words, with the type of the items for an array whose items have one. -/
def typeLabel : Json → Text
  | .obj ms =>
    let type := typeValue ms
    if isArrayName type then
      match (items ms).member? "type" with
      | some (.str t) => "array [" ++ t ++ "]"
      | _ => "array"
    else if type.isTruthy then type.display
    else if (properties? ms).isSome then "object"
    else []
  | _ => []

/-- The constraints that rows show, with their labels, in the order of display. -/
def constraintLabels : List (Text × Text) :=
  [("minLength", "min length"), ("maxLength", "max length"), ("pattern", "pattern"),
   ("format", "format"), ("minimum", "min"), ("maximum", "max"), ("minItems", "min items"),
   ("maxItems", "max items")]

/-- The constraints of a schema; those that are `null` are left out. -/
def constraints : Json → List Text
  | .obj ms => constraintLabels.filterMap fun (key, label) =>
    match Keyed.get? ms key with
    | some .null | none => none
    | some v => some (label ++ ": " ++ v.display)
  | _ => []

/-- The schema whose properties are shown below a row: an object with properties itself, or the items of an
array if they have some. -/
def child? : Json → Option Json
  | .obj ms =>
    let hasProperties (ms : Members) : Bool := (properties? ms).any (!·.isEmpty)
    if hasProperties ms then some (.obj ms)
    else if hasType "array" ms then
      match items ms with
      | .obj is => if hasProperties is then some (.obj is) else none
      | _ => none
    else none
  | _ => none

/-- A listed or default value: strings without quotes, all else as JSON. -/
def valueText : Json → Text
  | .str s => s
  | j => j.ascii

end DocPages.Schema
