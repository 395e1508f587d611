import DocPages.Schema.Resolve

/-!
# Example values

A value that a schema describes. What the schema gives as an example or a default comes first, then its
composition, then the first of its listed values, and last a value made up after its type.
-/

namespace DocPages.Schema

/-- The types that values are made up for. -/
inductive Kind where
  | object | array | string | number | boolean | null | other
  deriving DecidableEq

def Kind.ofName : Text → Kind := fun t =>
  if t = "object" then .object
  else if t = "array" then .array
  else if t = "string" then .string
  else if t = "number" ∨ t = "integer" then .number
  else if t = "boolean" then .boolean
  else if t = "null" then .null
  else .other

def Kind.ofJson : Json → Kind
  | .str t => .ofName t
  | _ => .other

def isNullName : Json → Bool
  | .str t => t == "null".toList
  | _ => false

/-- The type that a schema names; of several the first that is not `null`. -/
def namedType (ms : Members) : Json :=
  match (Keyed.get? ms "type").getD .null with
  | .arr ts => (ts.find? fun t => !isNullName t).getD (.str "null")
  | t => t

/-- The type of a schema, told by its properties or items if it names none. -/
def kind (ms : Members) : Kind :=
  let named := namedType ms
  if named.isTruthy then .ofJson named
  else if (properties? ms).isSome then .object
  else if ms.has "items" then .array
  else .other

/-- A well-known value for a format of strings. -/
def formatExample (format : Text) : Text :=
  (Keyed.get?
    [("date-time", "2024-01-01T00:00:00Z"),
     ("date", "2024-01-01"),
     ("email", "user@example.com"),
     ("uri", "https://example.com"),
     ("url", "https://example.com"),
     ("uuid", "123e4567-e89b-12d3-a456-426614174000")] format).getD "string"

def stringExample (ms : Members) : Json :=
  match Keyed.get? ms "format" with
  | some (.str format) => .str (formatExample format)
  | _ => .str "string"

/-- The examples of the parts of a schema in one: objects are united, and only if all of them are empty the
last value of another kind stands in. -/
def joinExamples (xs : List Json) : Json :=
  let merged := (xs.filterMap Json.members?).foldl Keyed.update []
  let others := xs.filter fun x => x.members?.isNone
  match merged, others.getLast? with
  | [], some x => if x.isNull then .obj [] else x
  | ms, _ => .obj ms

/-- The first of the listed values. -/
def firstListed? (ms : Members) : Option Json := ((Keyed.get? ms "enum").bind Json.items?).bind List.head?

mutual

def exampleOf : Json → Json
  | .obj ms =>
    match Keyed.get? ms "example" with
    | some x => x
    | none => match Keyed.get? ms "default" with
    | some x => x
    | none => match partExamples ms with
    | some (x :: xs) => joinExamples (x :: xs)
    | _ => match variantExample "oneOf" ms with
    | some x => x
    | none => match variantExample "anyOf" ms with
    | some x => x
    | none => match firstListed? ms with
    | some x => x
    | none => match kind ms with
    | .object => .obj (propertyExamples ms)
    | .array => .arr [itemExample ms]
    | .string => stringExample ms
    | .number => .int 0
    | .boolean => .bool true
    | .null => .null
    | .other => .str "string"
  | _ => .str "string"
  termination_by structural j => j

/-- The examples of the parts, if there is a list of them. -/
def partExamples : List (Text × Json) → Option (List Json)
  | [] => none
  | (k, .arr xs) :: ms => if k = "allOf" then some (exampleList xs) else partExamples ms
  | (k, _) :: ms => if k = "allOf" then none else partExamples ms
  termination_by structural ms => ms

def exampleList : List Json → List Json
  | [] => []
  | x :: xs => exampleOf x :: exampleList xs
  termination_by structural xs => xs

/-- The example of the first variant. -/
def variantExample (keyword : Text) : List (Text × Json) → Option Json
  | [] => none
  | (k, .arr (x :: _)) :: ms => if k = keyword then some (exampleOf x) else variantExample keyword ms
  | (k, _) :: ms => if k = keyword then none else variantExample keyword ms
  termination_by structural ms => ms

def itemExample : List (Text × Json) → Json
  | [] => .str "string"
  | (k, v) :: ms => if k = "items" then exampleOf v else itemExample ms
  termination_by structural ms => ms

def propertyExamples : List (Text × Json) → List (Text × Json)
  | [] => []
  | (k, .obj ps) :: ms => if k = "properties" then memberExamples ps else propertyExamples ms
  | (k, _) :: ms => if k = "properties" then [] else propertyExamples ms
  termination_by structural ms => ms

def memberExamples : List (Text × Json) → List (Text × Json)
  | [] => []
  | (k, v) :: ms => (k, exampleOf v) :: memberExamples ms
  termination_by structural ms => ms

end

end DocPages.Schema
