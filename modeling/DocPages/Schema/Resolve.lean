import DocPages.Json.Basic

/-!
# Resolving schemas

A schema may be put together from others: `allOf` joins parts, `oneOf` and `anyOf` offer variants. `resolve`
flattens these into one view of an object. Parts are always merged; variants are merged into a permissive
union only if each of them is an object with properties. A value that is no object is its own resolution.
-/

namespace DocPages.Schema

/-- The properties of a schema, if they are an object. -/
def properties? (ms : Members) : Option Members := (Keyed.get? ms "properties").bind Json.members?

/-- The `required` entries, none unless they are a list. -/
def required (ms : Members) : List Json := ((Keyed.get? ms "required").bind Json.items?).getD []

def hasType (type : Text) (ms : Members) : Bool :=
  match Keyed.get? ms "type" with
  | some (.str t) => t == type
  | _ => false

def isObjectShaped (ms : Members) : Bool := (properties? ms).isSome || hasType "object" ms

/-- A variant that can be merged: an object with properties and no other type than `object`. -/
def isMergeable (ms : Members) : Bool :=
  (properties? ms).isSome && (!ms.has "type" || hasType "object" ms)

def putProperties (ps ms : Members) : Members := if ps.isEmpty then ms else ms.put "properties" (.obj ps)

def putRequired (rs : List Json) (ms : Members) : Members :=
  if rs.isEmpty then ms else ms.put "required" (.arr (Json.distinct rs))

/-- The properties of a schema followed by those of others, a later one taking the place of an earlier. -/
def unionProperties (ms : Members) (others : List Members) : Members :=
  others.foldl (fun ps other => ps.update ((properties? other).getD [])) ((properties? ms).getD [])

def unionRequired (ms : Members) (others : List Members) : List Json :=
  required ms ++ others.flatMap required

/-- The first description that is not empty. -/
def firstDescription (ms : Members) (parts : List Members) : Option Json :=
  ((ms :: parts).filterMap fun m => Keyed.get? m "description").find? Json.isTruthy

/-- A schema joined with its resolved parts. Around parts that are no objects the schema is a wrapper: it
takes over all they say, and what it says itself comes last. -/
def mergeParts (ms : Members) (parts : List Json) : Members :=
  let parts := parts.filterMap Json.members?
  if !isObjectShaped ms && !parts.any isObjectShaped then
    (parts ++ [ms]).foldl (fun acc part => acc.update (part.without ["allOf"])) []
  else
    let merged := ms.without ["allOf", "properties", "required", "description"]
      |>.put "type" (.str "object")
      |> putProperties (unionProperties ms parts)
      |> putRequired (unionRequired ms parts)
    match firstDescription ms parts with
    | some d => merged.put "description" d
    | none => merged

/-- A schema united with its resolved variants, if there are any and all of them can be merged. -/
def mergeVariants? (keyword : Text) (ms : Members) (variants : List Json) : Option Members :=
  let objects := variants.filterMap Json.members?
  if variants.isEmpty || objects.length < variants.length || !objects.all isMergeable then none
  else some (ms.without [keyword, "properties", "required"]
    |>.put "type" (.str "object")
    |> putProperties (unionProperties ms objects)
    |> putRequired (unionRequired ms objects))

def mergeVariants (keyword : Text) (variants : Option (List Json)) (ms : Members) : Members :=
  (variants.bind (mergeVariants? keyword ms)).getD ms

mutual

/-- The view of a schema without composition. A wrapper may take over variants from its parts, but those
did not merge there and would not merge here, so only its own are tried. -/
def resolve : Json → Json
  | .obj ms =>
    let joined := match resolveList "allOf" ms with
      | some parts => mergeParts ms parts
      | none => ms
    .obj (joined
      |> mergeVariants "oneOf" (resolveList "oneOf" ms)
      |> mergeVariants "anyOf" (resolveList "anyOf" ms))
  | j => j
  termination_by structural j => j

/-- The resolved entries of a member, if it is a list. -/
def resolveList (keyword : Text) : List (Text × Json) → Option (List Json)
  | [] => none
  | (k, .arr xs) :: ms => if k = keyword then some (resolveAll xs) else resolveList keyword ms
  | (k, _) :: ms => if k = keyword then none else resolveList keyword ms
  termination_by structural ms => ms

def resolveAll : List Json → List Json
  | [] => []
  | x :: xs => resolve x :: resolveAll xs
  termination_by structural xs => xs

end

end DocPages.Schema
