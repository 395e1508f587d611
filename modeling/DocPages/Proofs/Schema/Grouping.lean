import DocPages.Proofs.Schema.Composition

/-!
# Parts in groups

Objects that are joined may be put into groups that are joined first, and groups into groups: the result is that of
joining them all at once. What a list of parts has to say is told once, by `Alike`; a group says what its parts say.
-/

namespace DocPages.Schema

open Json

/-- The keywords that put a schema together from others. -/
def compositionKeywords : List Text := ["allOf", "oneOf", "anyOf"]

/-- A schema of an object that is not put together from others. -/
structure PlainObject where
  members : Members
  proper : (Json.obj members).Proper
  shaped : isObjectShaped members = true
  plain : ∀ keyword ∈ compositionKeywords, Keyed.get? members keyword = none

/-- Parts in a row: objects, and groups of parts. -/
inductive Parts where
  | nil
  | object (o : PlainObject) (rest : Parts)
  | group (inner rest : Parts)

/-- A schema that says nothing but what its parts are. -/
def allOf (parts : List Json) : Json := .obj [("allOf", .arr parts)]

namespace Parts

/-- The schemas of the parts, that of a group with its own parts inside. -/
def schemas : Parts → List Json
  | nil => []
  | object o rest => .obj o.members :: rest.schemas
  | group inner rest => allOf inner.schemas :: rest.schemas

/-- The objects from left to right, in whatever groups they are. -/
def leaves : Parts → List PlainObject
  | nil => []
  | object o rest => o :: rest.leaves
  | group inner rest => inner.leaves ++ rest.leaves

end Parts

/-! ## What parts say together -/

/-- The first description of a part that is not empty. -/
def descriptionOf (parts : List Members) : Option Json :=
  (parts.filterMap fun part => Keyed.get? part "description").find? isTruthy

/-- The parts come to the same when they are joined, whatever stands in front of them. -/
structure Alike (parts parts' : List Members) : Prop where
  shaped : (∃ part ∈ parts, isObjectShaped part = true) ↔ ∃ part ∈ parts', isObjectShaped part = true
  properties : ∀ ps : Members,
    Keyed.update ps (parts.flatMap ownProperties) = Keyed.update ps (parts'.flatMap ownProperties)
  required : ∀ rs : List Json, (∀ r ∈ rs, r.Proper) →
    distinct (rs ++ parts.flatMap Schema.required) = distinct (rs ++ parts'.flatMap Schema.required)
  description : descriptionOf parts = descriptionOf parts'

theorem proper_of_mem_flatMap_required {parts : List Members} (h : ∀ part ∈ parts, (Json.obj part).Proper) :
    ∀ r ∈ parts.flatMap required, r.Proper := by
  intro r hr
  obtain ⟨part, hpart, hr⟩ := List.mem_flatMap.1 hr
  exact proper_of_mem_required (h part hpart) r hr

namespace Alike

variable {parts parts' parts'' others others' : List Members}

theorem refl (parts : List Members) : Alike parts parts := ⟨.rfl, fun _ => rfl, fun _ _ => rfl, rfl⟩

theorem trans (h : Alike parts parts') (h' : Alike parts' parts'') : Alike parts parts'' where
  shaped := h.shaped.trans h'.shaped
  properties ps := (h.properties ps).trans (h'.properties ps)
  required rs hrs := (h.required rs hrs).trans (h'.required rs hrs)
  description := h.description.trans h'.description

theorem nothing : Alike [[]] [] := ⟨by decide, fun _ => rfl, fun _ _ => rfl, rfl⟩

theorem descriptionOf_append (parts others : List Members) :
    descriptionOf (parts ++ others) = (descriptionOf parts).or (descriptionOf others) := by
  rw [descriptionOf, List.filterMap_append, List.find?_append]
  rfl

theorem append (h : Alike parts parts') (ho : Alike others others')
    (hparts : ∀ part ∈ parts, (Json.obj part).Proper) (hparts' : ∀ part ∈ parts', (Json.obj part).Proper) :
    Alike (parts ++ others) (parts' ++ others') where
  shaped := by simp only [List.mem_append, or_and_right, exists_or, h.shaped, ho.shaped]
  properties ps := by
    rw [List.flatMap_append, List.flatMap_append, Keyed.update_append, Keyed.update_append, h.properties,
      ho.properties]
  required rs hrs := by
    have hproper {ms : List Members} (hms : ∀ part ∈ ms, (Json.obj part).Proper) :
        ∀ r ∈ rs ++ ms.flatMap Schema.required, r.Proper :=
      List.forall_mem_append.2 ⟨hrs, proper_of_mem_flatMap_required hms⟩
    rw [List.flatMap_append, List.flatMap_append, ← List.append_assoc, ← List.append_assoc,
      ho.required _ (hproper hparts), ← distinct_distinct_append (hproper hparts), h.required rs hrs,
      distinct_distinct_append (hproper hparts')]
  description := by rw [descriptionOf_append, descriptionOf_append, h.description, ho.description]

end Alike

/-! ## What is made of parts -/

/-- A member that is written only if there is something to say. -/
def optional (k : Text) : Option Json → Members
  | some v => [(k, v)]
  | none => []

/-- The object that parts make up: properties and entries of `required` one after the other, of which a later property
takes the place of an earlier one and an entry that is there already is left out, and the first description. -/
def union (parts : List Members) : Members :=
  let properties := Keyed.ofList (parts.flatMap ownProperties)
  let required := distinct (parts.flatMap required)
  optional "type" (some (.str "object")) ++
    (optional "properties" (if properties.isEmpty then none else some (.obj properties)) ++
      (optional "required" (if required.isEmpty then none else some (.arr required)) ++
        optional "description" (descriptionOf parts)))

variable {parts : List Members}

theorem join_of_shaped (h : ∃ part ∈ parts, isObjectShaped part = true) : join [] parts = union parts := by
  have hproperties : unionProperties [] parts = Keyed.ofList (parts.flatMap ownProperties) := unionProperties_eq [] parts
  have hrequired : unionRequired [] parts = parts.flatMap required := rfl
  have hdescription : firstDescription [] parts = descriptionOf parts := rfl
  have hobject : IsObject [] parts := .inr h
  rw [join, if_pos hobject, hproperties, hrequired, hdescription, union, isEmpty_distinct]
  unfold asObject putProperties putRequired optional describe
  cases (Keyed.ofList (parts.flatMap ownProperties)).isEmpty <;> cases (parts.flatMap required).isEmpty <;>
    cases descriptionOf parts <;> rfl

theorem join_nil_of_blank (h : ∀ part ∈ parts, part = []) : join [] parts = [] := by
  have hobject : ¬ IsObject [] parts := by
    rintro (hshaped | ⟨part, hpart, hshaped⟩)
    · cases hshaped
    · rw [h part hpart] at hshaped
      cases hshaped
  have hsaid : (parts ++ [[]]).flatMap (Keyed.without ["allOf"]) = [] := by
    refine List.flatMap_eq_nil_iff.2 fun part hpart => ?_
    rw [List.forall_mem_append.2 ⟨h, by simp⟩ part hpart]
    rfl
  rw [join, if_neg hobject, wrap_eq, hsaid]
  rfl

theorem join_allOf (v : Json) (parts : List Members) : join [("allOf", v)] parts = join [] parts := by
  have hwrap : wrap [("allOf", v)] parts = wrap [] parts := by
    rw [wrap_eq, wrap_eq, List.flatMap_append, List.flatMap_append]
    rfl
  rw [join, join, hwrap]
  rfl

theorem resolve_allOf (xs : List Json) : resolve (allOf xs) = .obj (join [] (objects xs)) := by
  have hoffers {keyword : Text} (h : keyword ≠ "allOf") : ¬ Offers keyword [("allOf", .arr xs)] := by
    rintro ⟨xs, hxs, -⟩
    rw [schemas?_cons, if_neg h] at hxs
    cases hxs
  have hjoined : joined [("allOf", .arr xs)] = join [("allOf", .arr xs)] (objects xs) := rfl
  rw [allOf, resolve_obj, view, withVariants_eq, if_neg (hoffers (by decide)), withVariants_eq,
    if_neg (hoffers (by decide)), hjoined, join_allOf]

theorem resolve_plain (o : PlainObject) : resolve (.obj o.members) = .obj o.members := by
  have hlisted {keyword : Text} (h : keyword ∈ compositionKeywords) : schemas? keyword o.members = none :=
    schemas?_of_none (o.plain keyword h)
  have hoffers {keyword : Text} (h : keyword ∈ compositionKeywords) : ¬ Offers keyword o.members := by
    rintro ⟨xs, hxs, -⟩
    rw [hlisted h] at hxs
    cases hxs
  have hjoined : joined o.members = o.members := by rw [joined, hlisted (by simp [compositionKeywords])]
  rw [resolve_obj, view, withVariants_eq, if_neg (hoffers (by simp [compositionKeywords])), withVariants_eq,
    if_neg (hoffers (by simp [compositionKeywords])), hjoined]

theorem objects_cons {x : Json} {ms : Members} (h : resolve x = .obj ms) (xs : List Json) :
    objects (x :: xs) = ms :: objects xs := by
  rw [objects, List.map_cons, h, List.filterMap_cons_some (show (Json.obj ms).members? = some ms from rfl), objects]

theorem get?_optional (k : Text) (v : Option Json) (j : Text) :
    Keyed.get? (optional k v) j = if j = k then v else none := by
  cases v with
  | none => exact (ite_self none).symm
  | some v => exact Keyed.get?_cons k j v []

theorem get?_union (parts : List Members) :
    Keyed.get? (union parts) "type" = some (.str "object") ∧
      Keyed.get? (union parts) "description" = descriptionOf parts := by
  simp [union, Keyed.get?_append, get?_optional]

theorem descriptionOf_singleton {ms : Members} (h : Keyed.get? ms "description" = descriptionOf parts) :
    descriptionOf [ms] = descriptionOf parts := by
  have hmap : ([ms].filterMap fun part => Keyed.get? part "description") = (descriptionOf parts).toList := by
    rw [List.filterMap_cons, h]
    cases descriptionOf parts <;> rfl
  rw [descriptionOf, hmap]
  cases hd : descriptionOf parts with
  | none => rfl
  | some d => exact List.find?_cons_of_pos (List.find?_some hd)

/-- The joined object says what its parts say. -/
theorem alike_join (hshaped : ∃ part ∈ parts, isObjectShaped part = true)
    (hproper : ∀ part ∈ parts, (Json.obj part).Proper) : Alike [join [] parts] parts := by
  have hobject : IsObject [] parts := .inr hshaped
  have hproperties : ownProperties (join [] parts) = Keyed.ofList (parts.flatMap ownProperties) := by
    rw [ownProperties_join hobject, unionProperties_eq]
    rfl
  have hrequired : required (join [] parts) = distinct (parts.flatMap required) := required_join hobject
  obtain ⟨htype, hdescription⟩ := join_of_shaped hshaped ▸ get?_union parts
  have hjoined : isObjectShaped (join [] parts) = true := by
    rw [isObjectShaped, hasType, htype]
    exact Bool.or_true _
  refine ⟨iff_of_true ⟨_, List.mem_singleton_self _, hjoined⟩ hshaped, fun ps => ?_, fun rs hrs => ?_, ?_⟩
  · rw [List.flatMap_singleton, hproperties, Keyed.update_ofList]
  · rw [List.flatMap_singleton, hrequired, distinct_append_distinct (proper_of_mem_flatMap_required hproper) hrs]
  · exact descriptionOf_singleton hdescription

/-- Objects that say the same are joined to the same. -/
theorem Alike.join_eq {parts' : List Members} (h : Alike parts parts')
    (hshaped : ∃ part ∈ parts', isObjectShaped part = true) : join [] parts = join [] parts' := by
  have hproperties : Keyed.ofList (parts.flatMap ownProperties) = Keyed.ofList (parts'.flatMap ownProperties) :=
    h.properties []
  have hrequired : distinct (parts.flatMap Schema.required) = distinct (parts'.flatMap Schema.required) :=
    h.required [] (by simp)
  rw [join_of_shaped (h.shaped.2 hshaped), join_of_shaped hshaped, union, union, hproperties, hrequired, h.description]

/-! ## Groups -/

namespace Parts

theorem objects_object (o : PlainObject) (rest : Parts) :
    objects (object o rest).schemas = o.members :: objects rest.schemas :=
  objects_cons (resolve_plain o) rest.schemas

theorem objects_group (inner rest : Parts) :
    objects (group inner rest).schemas = join [] (objects inner.schemas) :: objects rest.schemas :=
  objects_cons (resolve_allOf inner.schemas) rest.schemas

theorem proper_objects (p : Parts) : ∀ part ∈ objects p.schemas, (Json.obj part).Proper := by
  induction p with
  | nil => simp [schemas, objects]
  | object o rest ih =>
    rw [objects_object]
    exact List.forall_mem_cons.2 ⟨o.proper, ih⟩
  | group inner rest ihInner ih =>
    rw [objects_group]
    exact List.forall_mem_cons.2 ⟨proper_join (proper_obj_iff.2 (by simp)) ihInner, ih⟩

/-- Groups in which there is no object resolve to schemas that say nothing. -/
theorem blank_of_leaves_eq_nil {p : Parts} (h : p.leaves = []) : ∀ part ∈ objects p.schemas, part = [] := by
  induction p with
  | nil => simp [schemas, objects]
  | object o rest ih => cases h
  | group inner rest ihInner ih =>
    obtain ⟨hinner, hrest⟩ := List.append_eq_nil_iff.1 h
    rw [objects_group]
    exact List.forall_mem_cons.2 ⟨join_nil_of_blank (ihInner hinner), ih hrest⟩

theorem shaped_leaves {p : Parts} (h : p.leaves ≠ []) :
    ∃ part ∈ p.leaves.map PlainObject.members, isObjectShaped part = true := by
  obtain ⟨o, ho⟩ := List.exists_mem_of_ne_nil _ h
  exact ⟨o.members, List.mem_map_of_mem ho, o.shaped⟩

theorem proper_leaves (p : Parts) : ∀ part ∈ p.leaves.map PlainObject.members, (Json.obj part).Proper := by
  intro part hpart
  obtain ⟨o, -, rfl⟩ := List.mem_map.1 hpart
  exact o.proper

/-- What a row of parts resolves to says what the objects in it say. -/
theorem alike_leaves (p : Parts) : Alike (objects p.schemas) (p.leaves.map PlainObject.members) := by
  induction p with
  | nil => exact Alike.refl []
  | object o rest ih =>
    have hone : ∀ part ∈ [o.members], (Json.obj part).Proper := by simpa using o.proper
    rw [objects_object]
    exact (Alike.refl [o.members]).append ih hone hone
  | group inner rest ihInner ih =>
    have hjoined : Alike [join [] (objects inner.schemas)] (inner.leaves.map PlainObject.members) := by
      by_cases hnone : inner.leaves = []
      · rw [join_nil_of_blank (blank_of_leaves_eq_nil hnone), hnone]
        exact Alike.nothing
      · exact (alike_join (ihInner.shaped.2 (shaped_leaves hnone)) inner.proper_objects).trans ihInner
    have hproper : ∀ part ∈ [join [] (objects inner.schemas)], (Json.obj part).Proper :=
      List.forall_mem_singleton.2 (proper_join (proper_obj_iff.2 (by simp)) inner.proper_objects)
    rw [objects_group, leaves, List.map_append]
    exact hjoined.append ih hproper inner.proper_leaves

theorem objects_map_members (os : List PlainObject) :
    objects (os.map fun o => .obj o.members) = os.map PlainObject.members := by
  induction os with
  | nil => rfl
  | cons o os ih => rw [List.map_cons, objects_cons (resolve_plain o), ih, List.map_cons]

/-- **Grouping the parts of an object does not change it.** Whatever parts are joined first, what comes of them is what
comes of all objects in a row, and this is their union; without an object it says nothing. -/
theorem resolve_allOf_schemas (p : Parts) :
    resolve (allOf p.schemas) = resolve (allOf (p.leaves.map fun o => .obj o.members)) ∧
      resolve (allOf p.schemas) =
        .obj (if p.leaves = [] then [] else union (p.leaves.map PlainObject.members)) := by
  rw [resolve_allOf, resolve_allOf, objects_map_members]
  by_cases hnone : p.leaves = []
  · rw [join_nil_of_blank (blank_of_leaves_eq_nil hnone), if_pos hnone, hnone]
    exact ⟨rfl, rfl⟩
  · have hjoin := p.alike_leaves.join_eq (shaped_leaves hnone)
    rw [hjoin, if_neg hnone, join_of_shaped (shaped_leaves hnone)]
    exact ⟨rfl, rfl⟩

end Parts

end DocPages.Schema
