import DocPages.Proofs.Json.Distinct
import DocPages.Schema.Resolve

/-!
# The steps of resolving

A schema is resolved in three steps: its parts are joined to it, then its variants of either keyword are united
with it. For each step it is said once what it leaves under a name; what all steps keep follows by going through
them. Schemas that are listed under a keyword are smaller than the schema, which gives the induction that carries
what is said about resolved schemas.
-/

namespace DocPages

namespace Json

theorem proper_put {ms : Members} (h : (Json.obj ms).Proper) (k : Text) {v : Json} (hv : v.Proper) :
    (Json.obj (Keyed.put k v ms)).Proper := by
  obtain ⟨hnodup, hms⟩ := proper_obj_iff.1 h
  refine proper_obj_iff.2 ⟨Keyed.nodup_put hnodup k v, fun m hm => ?_⟩
  rcases Keyed.mem_put hm with rfl | hm
  · exact hv
  · exact hms m hm

theorem proper_update {ms ns : Members} (h : (Json.obj ms).Proper) (hns : ∀ n ∈ ns, n.2.Proper) :
    (Json.obj (Keyed.update ms ns)).Proper := by
  obtain ⟨hnodup, hms⟩ := proper_obj_iff.1 h
  refine proper_obj_iff.2 ⟨Keyed.nodup_update hnodup ns, fun m hm => ?_⟩
  exact (Keyed.mem_update hm).elim (hms m) (hns m)

theorem proper_without {ms : Members} (h : (Json.obj ms).Proper) (keys : List Text) :
    (Json.obj (Keyed.without keys ms)).Proper := by
  obtain ⟨hnodup, hms⟩ := proper_obj_iff.1 h
  exact proper_obj_iff.2 ⟨Keyed.nodup_without hnodup keys,
    fun m hm => hms m ((Keyed.without_sublist keys ms).subset hm)⟩

theorem members?_eq_some_iff {j : Json} {ms : Members} : j.members? = some ms ↔ j = .obj ms := by
  cases j <;> simp [members?]

theorem items?_eq_some_iff {j : Json} {xs : List Json} : j.items? = some xs ↔ j = .arr xs := by
  cases j <;> simp [items?]

end Json

namespace Schema

open Json

/-! ## What is listed under a keyword -/

/-- The schemas under a keyword, if they are a list. -/
def schemas? (keyword : Text) (ms : Members) : Option (List Json) := (Keyed.get? ms keyword).bind Json.items?

variable {ms : Members} {xs : List Json} {keyword : Text}

theorem schemas?_eq_some_iff : schemas? keyword ms = some xs ↔ Keyed.get? ms keyword = some (.arr xs) := by
  rw [schemas?, Option.bind_eq_some_iff]
  simp only [items?_eq_some_iff, exists_eq_right]

theorem schemas?_cons (keyword k : Text) (v : Json) (ms : Members) :
    schemas? keyword ((k, v) :: ms) = if keyword = k then v.items? else schemas? keyword ms := by
  rw [schemas?, Keyed.get?_cons]
  split <;> rfl

theorem schemas?_congr {ns : Members} (h : Keyed.get? ms keyword = Keyed.get? ns keyword) :
    schemas? keyword ms = schemas? keyword ns := by rw [schemas?, h, schemas?]

theorem schemas?_of_none (h : Keyed.get? ms keyword = none) : schemas? keyword ms = none := by
  rw [schemas?, h]
  rfl

theorem proper_of_mem_schemas (h : (Json.obj ms).Proper) (hxs : schemas? keyword ms = some xs) {x : Json}
    (hx : x ∈ xs) : x.Proper :=
  proper_arr_iff.1 (proper_of_get? h (schemas?_eq_some_iff.1 hxs)) x hx

/-- Induction over the schemas that are listed in a schema, under whatever keyword. -/
theorem composed_induction {P : Json → Prop} (other : ∀ j, j.members? = none → P j)
    (obj : ∀ ms, (∀ keyword xs, schemas? keyword ms = some xs → ∀ x ∈ xs, P x) → P (.obj ms)) (s : Json) : P s := by
  cases s with
  | obj ms =>
    refine obj ms fun keyword xs hxs x hx => ?_
    have hmem := Keyed.mem_of_get? (schemas?_eq_some_iff.1 hxs)
    have hlt := (sizeOf_lt_of_mem_items hx).trans (sizeOf_lt_of_mem_members hmem)
    exact composed_induction other obj x
  | _ => exact other _ rfl
  termination_by sizeOf s
  decreasing_by exact hlt

theorem resolveAll_eq (xs : List Json) : resolveAll xs = xs.map resolve := by
  induction xs with
  | nil => rfl
  | cons x xs ih => rw [resolveAll, ih, List.map_cons]

theorem resolveList_eq (keyword : Text) (ms : Members) :
    resolveList keyword ms = (schemas? keyword ms).map (List.map resolve) := by
  induction ms with
  | nil => rfl
  | cons m ms ih =>
    obtain ⟨k, v⟩ := m
    rw [schemas?_cons]
    by_cases h : k = keyword
    · cases v <;> simp [resolveList, h, items?, resolveAll_eq]
    · cases v <;> simp [resolveList, h, Ne.symm h, ih]

/-! ## The steps -/

/-- The objects among the resolved schemas. -/
def objects (xs : List Json) : List Members := (xs.map resolve).filterMap Json.members?

/-- Each of the variants is an object with properties, and there is one. -/
def Unites (xs : List Json) : Prop := xs ≠ [] ∧ ∀ x ∈ xs, ∃ ns, resolve x = .obj ns ∧ isMergeable ns = true

/-- The schema or a part of it is an object. -/
def IsObject (ms : Members) (parts : List Members) : Prop :=
  isObjectShaped ms = true ∨ ∃ part ∈ parts, isObjectShaped part = true

instance (xs : List Json) : Decidable (Unites xs) :=
  decidable_of_iff (xs ≠ [] ∧ ∀ x ∈ xs, ∃ ns ∈ (resolve x).members?, isMergeable ns = true) <| by
    simp only [Unites, Option.mem_def, members?_eq_some_iff]

instance (ms : Members) (parts : List Members) : Decidable (IsObject ms parts) :=
  inferInstanceAs (Decidable (_ ∨ _))

/-- An object with these properties and entries of `required`, and what the schema says besides. -/
def asObject (properties : Members) (required : List Json) (ms : Members) : Members :=
  ms.put "type" (.str "object") |> putProperties properties |> putRequired required

def describe (description : Option Json) (ms : Members) : Members :=
  match description with
  | some d => ms.put "description" d
  | none => ms

/-- What the parts and then the schema say. -/
def wrap (ms : Members) (parts : List Members) : Members :=
  (parts ++ [ms]).foldl (fun acc part => acc.update (part.without ["allOf"])) []

/-- The schema with its parts. -/
def join (ms : Members) (parts : List Members) : Members :=
  if IsObject ms parts then
    describe (firstDescription ms parts)
      (asObject (unionProperties ms parts) (unionRequired ms parts)
        (ms.without ["allOf", "properties", "required", "description"]))
  else wrap ms parts

/-- The schema with variants of a keyword. -/
def unite (keyword : Text) (ms : Members) (variants : List Members) : Members :=
  asObject (unionProperties ms variants) (unionRequired ms variants) (ms.without [keyword, "properties", "required"])

/-- The schema with its parts, if it has a list of them. -/
def joined (ms : Members) : Members :=
  match schemas? "allOf" ms with
  | some xs => join ms (objects xs)
  | none => ms

/-- The variants under a keyword, if they can be united. -/
def variants? (keyword : Text) (ms : Members) : Option (List Members) :=
  match schemas? keyword ms with
  | some xs => if Unites xs then some (objects xs) else none
  | none => none

theorem variants?_eq_some_iff {vs : List Members} :
    variants? keyword ms = some vs ↔ ∃ xs, schemas? keyword ms = some xs ∧ Unites xs ∧ objects xs = vs := by
  unfold variants?
  cases schemas? keyword ms with
  | none => simp
  | some xs => by_cases h : Unites xs <;> simp [h]

/-- There are variants, and each of them resolves to an object with properties. -/
def Offers (keyword : Text) (ms : Members) : Prop := ∃ xs, schemas? keyword ms = some xs ∧ Unites xs

theorem offers_iff : (variants? keyword ms).isSome = true ↔ Offers keyword ms := by
  simp [Offers, Option.isSome_iff_exists, variants?_eq_some_iff]

instance (keyword : Text) (ms : Members) : Decidable (Offers keyword ms) := decidable_of_iff _ offers_iff

theorem variants?_of_offers (h : Offers keyword ms) :
    variants? keyword ms = some (objects ((schemas? keyword ms).getD [])) := by
  obtain ⟨xs, hxs, hunites⟩ := h
  exact variants?_eq_some_iff.2 ⟨xs, hxs, hunites, by rw [hxs, Option.getD_some]⟩

theorem variants?_of_not_offers (h : ¬ Offers keyword ms) : variants? keyword ms = none :=
  Option.not_isSome_iff_eq_none.1 (mt offers_iff.1 h)

/-- The second schema with the variants of the first. -/
def withVariants (keyword : Text) (ms joined : Members) : Members :=
  match variants? keyword ms with
  | some vs => unite keyword joined vs
  | none => joined

theorem withVariants_eq (keyword : Text) (ms joined : Members) : withVariants keyword ms joined =
    if Offers keyword ms then unite keyword joined (objects ((schemas? keyword ms).getD [])) else joined := by
  by_cases h : Offers keyword ms
  · rw [withVariants, variants?_of_offers h, if_pos h]
  · rw [withVariants, variants?_of_not_offers h, if_neg h]

/-- The members of the resolved schema. -/
def view (ms : Members) : Members := withVariants "anyOf" ms (withVariants "oneOf" ms (joined ms))

theorem mergeParts_eq (ms : Members) (xs : List Json) : mergeParts ms (xs.map resolve) = join ms (objects xs) := by
  have hshape : (!isObjectShaped ms && !(objects xs).any isObjectShaped) = true ↔ ¬ IsObject ms (objects xs) := by
    simp [IsObject]
  unfold mergeParts join
  by_cases h : IsObject ms (objects xs)
  · have hnot := mt hshape.1 (not_not.2 h)
    rw [if_pos h]
    exact (if_neg hnot).trans rfl
  · rw [if_neg h]
    exact if_pos (hshape.2 h)

/-- All of the schemas resolve to objects if none is left out. -/
theorem length_objects_lt_iff (xs : List Json) :
    (objects xs).length < (xs.map resolve).length ↔ ¬ ∀ x ∈ xs, ∃ ns, resolve x = .obj ns := by
  have hle : (objects xs).length ≤ (xs.map resolve).length := List.length_filterMap_le _ _
  rw [lt_iff_le_and_ne, and_iff_right hle, ne_eq, objects, List.filterMap_length_eq_length]
  simp [Option.isSome_iff_exists, members?_eq_some_iff]

theorem mem_objects_iff {xs : List Json} {ns : Members} : ns ∈ objects xs ↔ ∃ x ∈ xs, resolve x = .obj ns := by
  simp [objects, members?_eq_some_iff]

theorem unites_iff {xs : List Json} : Unites xs ↔
    xs ≠ [] ∧ (∀ x ∈ xs, ∃ ns, resolve x = .obj ns) ∧ ∀ ns ∈ objects xs, isMergeable ns = true := by
  refine and_congr_right fun _ => ⟨fun h => ⟨fun x hx => ?_, fun ns hns => ?_⟩, fun h x hx => ?_⟩
  · obtain ⟨ns, hns, -⟩ := h x hx
    exact ⟨ns, hns⟩
  · obtain ⟨x, hx, hns⟩ := mem_objects_iff.1 hns
    obtain ⟨ns', hns', hmerge⟩ := h x hx
    obtain rfl := Json.obj.inj (hns.symm.trans hns')
    exact hmerge
  · obtain ⟨ns, hns⟩ := h.1 x hx
    exact ⟨ns, hns, h.2 ns (mem_objects_iff.2 ⟨x, hx, hns⟩)⟩

theorem mergeVariants?_eq (keyword : Text) (ms : Members) (xs : List Json) :
    mergeVariants? keyword ms (xs.map resolve) = if Unites xs then some (unite keyword ms (objects xs)) else none := by
  have hstuck : ((xs.map resolve).isEmpty || decide ((objects xs).length < (xs.map resolve).length) ||
      !(objects xs).all isMergeable) = true ↔ ¬ Unites xs := by
    rw [Bool.or_eq_true, Bool.or_eq_true, decide_eq_true_iff, length_objects_lt_iff, unites_iff]
    simp only [List.isEmpty_iff, List.map_eq_nil_iff, Bool.not_eq_true', ← Bool.not_eq_true, List.all_eq_true]
    tauto
  unfold mergeVariants?
  by_cases h : Unites xs
  · rw [if_pos h]
    exact (if_neg (mt hstuck.1 (not_not.2 h))).trans rfl
  · rw [if_neg h]
    exact if_pos (hstuck.2 h)

theorem mergeVariants_eq (keyword : Text) (ms joined : Members) :
    mergeVariants keyword (resolveList keyword ms) joined = withVariants keyword ms joined := by
  rw [mergeVariants, resolveList_eq, withVariants, variants?]
  cases schemas? keyword ms with
  | none => rfl
  | some xs =>
    rw [Option.map_some, Option.bind_some, mergeVariants?_eq]
    dsimp only
    split <;> rfl

theorem resolve_obj (ms : Members) : resolve (.obj ms) = .obj (view ms) := by
  rw [resolve, mergeVariants_eq, mergeVariants_eq, resolveList_eq, view, joined]
  cases schemas? "allOf" ms with
  | none => rfl
  | some xs =>
    rw [Option.map_some]
    dsimp only
    rw [mergeParts_eq]

theorem resolve_of_members?_none {s : Json} (h : s.members? = none) : resolve s = s := by
  cases s with
  | obj ms => cases h
  | _ => rfl

/-! ## What the steps leave under a name -/

/-- What is written anew for an object. -/
def objectKeys : List Text := ["type", "properties", "required"]

theorem notMem_objectKeys_iff {k : Text} : k ∉ objectKeys ↔ k ≠ "type" ∧ k ≠ "properties" ∧ k ≠ "required" := by
  simp only [objectKeys, List.mem_cons, List.not_mem_nil, or_false, not_or]

/-- The properties of a schema, none unless they are an object. -/
def ownProperties (ms : Members) : Members := (properties? ms).getD []

theorem unionProperties_eq (ms : Members) (others : List Members) :
    unionProperties ms others = Keyed.update (ownProperties ms) (others.flatMap ownProperties) :=
  Keyed.foldl_update ownProperties others (ownProperties ms)

theorem ownProperties_of_none {ms : Members} (h : Keyed.get? ms "properties" = none) : ownProperties ms = [] := by
  rw [ownProperties, properties?, h]
  rfl

theorem required_of_none {ms : Members} (h : Keyed.get? ms "required" = none) : required ms = [] := by
  rw [required, h]
  rfl

section
variable {k : Text} {ms : Members} (ps : Members) (rs : List Json)

theorem get?_putProperties (h : k ≠ "properties") : Keyed.get? (putProperties ps ms) k = Keyed.get? ms k := by
  unfold putProperties
  split
  · rfl
  · exact Keyed.get?_put_of_ne _ ms h

theorem get?_putRequired (h : k ≠ "required") : Keyed.get? (putRequired rs ms) k = Keyed.get? ms k := by
  unfold putRequired
  split
  · rfl
  · exact Keyed.get?_put_of_ne _ ms h

theorem get?_asObject (h : k ∉ objectKeys) : Keyed.get? (asObject ps rs ms) k = Keyed.get? ms k := by
  obtain ⟨htype, hproperties, hrequired⟩ := notMem_objectKeys_iff.1 h
  rw [asObject, get?_putRequired rs hrequired, get?_putProperties ps hproperties, Keyed.get?_put_of_ne _ ms htype]

theorem ownProperties_putProperties (h : Keyed.get? ms "properties" = none) :
    ownProperties (putProperties ps ms) = ps := by
  unfold putProperties
  split
  · next hps => rw [ownProperties_of_none h, List.isEmpty_iff.1 hps]
  · rw [ownProperties, properties?, Keyed.get?_put_self]
    rfl

theorem required_putRequired (h : Keyed.get? ms "required" = none) : required (putRequired rs ms) = distinct rs := by
  unfold putRequired
  split
  · next hrs =>
    rw [required_of_none h, List.isEmpty_iff.1 hrs]
    rfl
  · rw [required, Keyed.get?_put_self]
    rfl

theorem ownProperties_congr {ms ns : Members} (h : Keyed.get? ms "properties" = Keyed.get? ns "properties") :
    ownProperties ms = ownProperties ns := by rw [ownProperties, ownProperties, properties?, properties?, h]

theorem required_congr {ms ns : Members} (h : Keyed.get? ms "required" = Keyed.get? ns "required") :
    required ms = required ns := by rw [required, required, h]

theorem ownProperties_asObject (h : Keyed.get? ms "properties" = none) : ownProperties (asObject ps rs ms) = ps := by
  have hnone : Keyed.get? (ms.put "type" (.str "object")) "properties" = none := by
    rw [Keyed.get?_put_of_ne _ ms (by decide), h]
  rw [asObject, ownProperties_congr (get?_putRequired rs (by decide)), ownProperties_putProperties ps hnone]

theorem required_asObject (h : Keyed.get? ms "required" = none) : required (asObject ps rs ms) = distinct rs := by
  have hnone : Keyed.get? (putProperties ps (ms.put "type" (.str "object"))) "required" = none := by
    rw [get?_putProperties ps (by decide), Keyed.get?_put_of_ne _ ms (by decide), h]
  rw [asObject, required_putRequired rs hnone]

end

theorem get?_describe {k : Text} (h : k ≠ "description") (d : Option Json) (ms : Members) :
    Keyed.get? (describe d ms) k = Keyed.get? ms k := by
  cases d with
  | none => rfl
  | some d => exact Keyed.get?_put_of_ne d ms h

theorem wrap_eq (ms : Members) (parts : List Members) :
    wrap ms parts = Keyed.ofList ((parts ++ [ms]).flatMap (Keyed.without ["allOf"])) :=
  Keyed.foldl_update (Keyed.without ["allOf"]) (parts ++ [ms]) []

/-- What the parts say, a later one before an earlier, and what the schema says before all of them. -/
theorem get?_wrap {ms : Members} {parts : List Members} (hms : (ms.map Prod.fst).Nodup)
    (hparts : ∀ part ∈ parts, (part.map Prod.fst).Nodup) {k : Text} (hk : k ≠ "allOf") :
    Keyed.get? (wrap ms parts) k = (ms :: parts.reverse).findSome? (Keyed.get? · k) := by
  have hall : ∀ part ∈ parts ++ [ms], Keyed.last? (Keyed.without ["allOf"] part) k = Keyed.get? part k := by
    intro part hpart
    have hnodup : (part.map Prod.fst).Nodup := by
      rcases List.mem_append.1 hpart with hpart | hpart
      · exact hparts part hpart
      · exact List.mem_singleton.1 hpart ▸ hms
    rw [Keyed.last?_of_nodup (Keyed.nodup_without hnodup _), Keyed.get?_without, if_neg (by simpa using hk)]
  rw [wrap_eq, Keyed.get?_ofList, Keyed.last?_flatMap hall, List.reverse_append, List.reverse_singleton]
  rfl

theorem get?_wrap_allOf (ms : Members) (parts : List Members) : Keyed.get? (wrap ms parts) "allOf" = none := by
  rw [wrap_eq, Keyed.get?_eq_none_iff, Keyed.mem_map_fst_ofList, List.map_flatMap, List.mem_flatMap]
  rintro ⟨part, -, hpart⟩
  refine absurd hpart (Keyed.get?_eq_none_iff.1 ?_)
  rw [Keyed.get?_without, if_pos (by simp)]

theorem get?_join {ms : Members} {parts : List Members} (h : IsObject ms parts) {k : Text} (hk : k ∉ objectKeys)
    (hdescription : k ≠ "description") :
    Keyed.get? (join ms parts) k = if k = "allOf" then none else Keyed.get? ms k := by
  rw [join, if_pos h, get?_describe hdescription, get?_asObject _ _ hk, Keyed.get?_without]
  obtain ⟨-, hproperties, hrequired⟩ := notMem_objectKeys_iff.1 hk
  refine if_congr ?_ rfl rfl
  simp only [List.mem_cons, List.not_mem_nil, hproperties, hrequired, hdescription, or_false]

theorem get?_unite {ms : Members} {keyword k : Text} (vs : List Members) (hk : k ∉ objectKeys) :
    Keyed.get? (unite keyword ms vs) k = if k = keyword then none else Keyed.get? ms k := by
  rw [unite, get?_asObject _ _ hk, Keyed.get?_without]
  obtain ⟨-, hproperties, hrequired⟩ := notMem_objectKeys_iff.1 hk
  refine if_congr ?_ rfl rfl
  simp only [List.mem_cons, List.not_mem_nil, hproperties, hrequired, or_false]

theorem ownProperties_join {ms : Members} {parts : List Members} (h : IsObject ms parts) :
    ownProperties (join ms parts) = unionProperties ms parts := by
  have hnone : Keyed.get? (ms.without ["allOf", "properties", "required", "description"]) "properties" = none := by
    rw [Keyed.get?_without, if_pos (by simp)]
  rw [join, if_pos h, ownProperties_congr (get?_describe (by decide) _ _), ownProperties_asObject _ _ hnone]

theorem required_join {ms : Members} {parts : List Members} (h : IsObject ms parts) :
    required (join ms parts) = distinct (unionRequired ms parts) := by
  have hnone : Keyed.get? (ms.without ["allOf", "properties", "required", "description"]) "required" = none := by
    rw [Keyed.get?_without, if_pos (by simp)]
  rw [join, if_pos h, required_congr (get?_describe (by decide) _ _), required_asObject _ _ hnone]

theorem ownProperties_unite (keyword : Text) (ms : Members) (vs : List Members) :
    ownProperties (unite keyword ms vs) = unionProperties ms vs := by
  have hnone : Keyed.get? (ms.without [keyword, "properties", "required"]) "properties" = none := by
    rw [Keyed.get?_without, if_pos (by simp)]
  rw [unite, ownProperties_asObject _ _ hnone]

theorem required_unite (keyword : Text) (ms : Members) (vs : List Members) :
    required (unite keyword ms vs) = distinct (unionRequired ms vs) := by
  have hnone : Keyed.get? (ms.without [keyword, "properties", "required"]) "required" = none := by
    rw [Keyed.get?_without, if_pos (by simp)]
  rw [unite, required_asObject _ _ hnone]

/-! ## Resolved schemas are proper -/

theorem proper_ownProperties {ms : Members} (h : (Json.obj ms).Proper) : (Json.obj (ownProperties ms)).Proper := by
  rw [ownProperties, properties?]
  cases hps : Keyed.get? ms "properties" with
  | none => exact proper_obj_iff.2 (by simp)
  | some v =>
    cases v with
    | obj ps => exact proper_of_get? h hps
    | _ => exact proper_obj_iff.2 (by simp [members?])

theorem proper_of_mem_required {ms : Members} (h : (Json.obj ms).Proper) : ∀ r ∈ required ms, r.Proper := by
  intro r hr
  unfold required at hr
  cases hrs : Keyed.get? ms "required" with
  | none =>
    rw [hrs] at hr
    cases hr
  | some v =>
    rw [hrs] at hr
    cases v with
    | arr rs => exact proper_arr_iff.1 (proper_of_get? h hrs) r hr
    | _ => cases hr

section
variable {ms : Members} {others : List Members} (hms : (Json.obj ms).Proper)
  (hothers : ∀ other ∈ others, (Json.obj other).Proper)
include hms hothers

theorem proper_unionProperties : (Json.obj (unionProperties ms others)).Proper := by
  rw [unionProperties_eq]
  refine proper_update (proper_ownProperties hms) fun p hp => ?_
  obtain ⟨other, hother, hp⟩ := List.mem_flatMap.1 hp
  exact (proper_obj_iff.1 (proper_ownProperties (hothers other hother))).2 p hp

theorem proper_of_mem_unionRequired : ∀ r ∈ unionRequired ms others, r.Proper := by
  intro r hr
  rcases List.mem_append.1 hr with hr | hr
  · exact proper_of_mem_required hms r hr
  · obtain ⟨other, hother, hr⟩ := List.mem_flatMap.1 hr
    exact proper_of_mem_required (hothers other hother) r hr

end

theorem proper_asObject {ms ps : Members} {rs : List Json} (hms : (Json.obj ms).Proper) (hps : (Json.obj ps).Proper)
    (hrs : ∀ r ∈ rs, r.Proper) : (Json.obj (asObject ps rs ms)).Proper := by
  have htype : (Json.str "object").Proper := trivial
  have hproperties : (Json.obj (putProperties ps (ms.put "type" (.str "object")))).Proper := by
    unfold putProperties
    split
    · exact proper_put hms _ htype
    · exact proper_put (proper_put hms _ htype) _ hps
  unfold asObject putRequired
  split
  · exact hproperties
  · exact proper_put hproperties _ (proper_arr_iff.2 fun r hr => hrs r (mem_of_mem_distinct hr))

theorem proper_unite {ms : Members} {vs : List Members} (keyword : Text) (hms : (Json.obj ms).Proper)
    (hvs : ∀ v ∈ vs, (Json.obj v).Proper) : (Json.obj (unite keyword ms vs)).Proper :=
  proper_asObject (proper_without hms _) (proper_unionProperties hms hvs) (proper_of_mem_unionRequired hms hvs)

section
variable {ms : Members} {parts : List Members} (hms : (Json.obj ms).Proper)
  (hparts : ∀ part ∈ parts, (Json.obj part).Proper)
include hms hparts

theorem proper_wrap : (Json.obj (wrap ms parts)).Proper := by
  rw [wrap_eq]
  refine proper_update (proper_obj_iff.2 (by simp)) fun m hm => ?_
  obtain ⟨part, hpart, hm⟩ := List.mem_flatMap.1 hm
  have hm : m ∈ part := (Keyed.without_sublist _ part).subset hm
  rcases List.mem_append.1 hpart with hpart | hpart
  · exact (proper_obj_iff.1 (hparts part hpart)).2 m hm
  · exact (proper_obj_iff.1 hms).2 m (List.mem_singleton.1 hpart ▸ hm)

theorem proper_join : (Json.obj (join ms parts)).Proper := by
  unfold join
  split
  · have hobject := proper_asObject (proper_without hms ["allOf", "properties", "required", "description"])
      (proper_unionProperties hms hparts) (proper_of_mem_unionRequired hms hparts)
    cases hd : firstDescription ms parts with
    | none => exact hobject
    | some d =>
      refine proper_put hobject _ ?_
      obtain ⟨m, hm, hdescription⟩ := List.mem_filterMap.1 (List.mem_of_find?_eq_some hd)
      rcases List.mem_cons.1 hm with rfl | hm
      · exact proper_of_get? hms hdescription
      · exact proper_of_get? (hparts m hm) hdescription
  · exact proper_wrap hms hparts

end

theorem proper_joined_of_parts {ms : Members} (h : (Json.obj ms).Proper)
    (hparts : ∀ xs, schemas? "allOf" ms = some xs → ∀ part ∈ objects xs, (Json.obj part).Proper) :
    (Json.obj (joined ms)).Proper := by
  unfold joined
  cases hxs : schemas? "allOf" ms with
  | none => exact h
  | some xs => exact proper_join h (hparts xs hxs)

theorem proper_withVariants {ms joined : Members} (keyword : Text) (hjoined : (Json.obj joined).Proper)
    (hvs : ∀ xs, schemas? keyword ms = some xs → ∀ v ∈ objects xs, (Json.obj v).Proper) :
    (Json.obj (withVariants keyword ms joined)).Proper := by
  unfold withVariants
  cases hv : variants? keyword ms with
  | none => exact hjoined
  | some vs =>
    obtain ⟨xs, hxs, -, rfl⟩ := variants?_eq_some_iff.1 hv
    exact proper_unite keyword hjoined (hvs xs hxs)

theorem proper_resolve {s : Json} (h : s.Proper) : (resolve s).Proper := by
  induction s using composed_induction with
  | other j hj => rwa [resolve_of_members?_none hj]
  | obj ms ih =>
    have hobjects (keyword : Text) (xs : List Json) (hxs : schemas? keyword ms = some xs) (v : Members)
        (hv : v ∈ objects xs) : (Json.obj v).Proper := by
      obtain ⟨x, hx, hv⟩ := mem_objects_iff.1 hv
      exact hv ▸ ih keyword xs hxs x hx (proper_of_mem_schemas h hxs hx)
    have hjoined := proper_joined_of_parts h (hobjects "allOf")
    rw [resolve_obj]
    exact proper_withVariants "anyOf" (proper_withVariants "oneOf" hjoined (hobjects "oneOf")) (hobjects "anyOf")

theorem proper_of_mem_objects {ms : Members} (h : (Json.obj ms).Proper) {keyword : Text} {xs : List Json}
    (hxs : schemas? keyword ms = some xs) {v : Members} (hv : v ∈ objects xs) : (Json.obj v).Proper := by
  obtain ⟨x, hx, hv⟩ := mem_objects_iff.1 hv
  exact hv ▸ proper_resolve (proper_of_mem_schemas h hxs hx)

theorem nodup_of_mem_objects {ms : Members} (h : (Json.obj ms).Proper) {keyword : Text} {xs : List Json}
    (hxs : schemas? keyword ms = some xs) : ∀ v ∈ objects xs, (v.map Prod.fst).Nodup :=
  fun _ hv => (proper_obj_iff.1 (proper_of_mem_objects h hxs hv)).1

theorem proper_joined {ms : Members} (h : (Json.obj ms).Proper) : (Json.obj (joined ms)).Proper :=
  proper_joined_of_parts h fun _ hxs _ hpart => proper_of_mem_objects h hxs hpart

end Schema

end DocPages
