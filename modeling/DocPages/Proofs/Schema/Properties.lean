import DocPages.Proofs.Schema.Composition

/-!
# Properties of a resolved schema

The properties of a resolved schema are written down without resolving it: its own, those of its parts, and those
of its variants where these are united, each list in the order in which it is taken over. The resolved schema has
just these names, in the order in which they first occur, and under each of them what was written last.
-/

namespace DocPages.Schema

open Json

/-- The properties of a schema, none if it is no object. -/
def propertiesOf (s : Json) : Members := (s.members?.map ownProperties).getD []

mutual

/-- What a schema and those that it is composed of contribute, in the order in which it is taken over. -/
def contributed : Json → Members
  | .obj ms => ownProperties ms ++ contributedIn "allOf" ms
      ++ (if Offers "oneOf" ms then contributedIn "oneOf" ms else [])
      ++ (if Offers "anyOf" ms then contributedIn "anyOf" ms else [])
  | _ => []
  termination_by structural s => s

/-- What the schemas under a keyword contribute. -/
def contributedIn (keyword : Text) : List (Text × Json) → Members
  | [] => []
  | (k, .arr xs) :: ms => if k = keyword then contributedAll xs else contributedIn keyword ms
  | (k, _) :: ms => if k = keyword then [] else contributedIn keyword ms
  termination_by structural ms => ms

def contributedAll : List Json → Members
  | [] => []
  | x :: xs => contributed x ++ contributedAll xs
  termination_by structural xs => xs

end

theorem contributedAll_eq (xs : List Json) : contributedAll xs = xs.flatMap contributed := by
  induction xs with
  | nil => rfl
  | cons x xs ih => rw [contributedAll, ih, List.flatMap_cons]

theorem contributedIn_eq (keyword : Text) (ms : Members) :
    contributedIn keyword ms = ((schemas? keyword ms).getD []).flatMap contributed := by
  induction ms with
  | nil => rfl
  | cons m ms ih =>
    obtain ⟨k, v⟩ := m
    rw [schemas?_cons]
    by_cases h : k = keyword
    · cases v <;> simp [contributedIn, h, items?, contributedAll_eq]
    · cases v <;> simp [contributedIn, h, Ne.symm h, ih]

/-! ## Uniting properties -/

theorem flatMap_objects (xs : List Json) :
    (objects xs).flatMap ownProperties = xs.flatMap fun x => propertiesOf (resolve x) := by
  induction xs with
  | nil => rfl
  | cons x xs ih =>
    rw [List.flatMap_cons, ← ih, propertiesOf, objects, objects, List.map_cons]
    cases h : (resolve x).members? with
    | none => rw [List.filterMap_cons_none h]; rfl
    | some ns => rw [List.filterMap_cons_some h, List.flatMap_cons]; rfl

theorem update_flatMap_ofList {xs : List Json} {f : Json → Members}
    (h : ∀ x ∈ xs, propertiesOf (resolve x) = Keyed.ofList (f x)) (es : Members) :
    Keyed.update es (xs.flatMap fun x => propertiesOf (resolve x)) = Keyed.update es (xs.flatMap f) := by
  induction xs generalizing es with
  | nil => rfl
  | cons x xs ih =>
    rw [List.flatMap_cons, List.flatMap_cons, Keyed.update_append, Keyed.update_append, h x List.mem_cons_self,
      Keyed.update_ofList, ih fun y hy => h y (List.mem_cons_of_mem x hy)]

/-! ## Each step -/

theorem properties?_of_not_shaped {ms : Members} (h : ¬ isObjectShaped ms = true) : properties? ms = none := by
  rw [isObjectShaped, Bool.or_eq_true, not_or] at h
  exact Option.not_isSome_iff_eq_none.1 h.1

/-- A wrapper has no properties, and neither have its parts. -/
theorem ownProperties_wrap {ms : Members} {parts : List Members} (hms : (ms.map Prod.fst).Nodup)
    (hparts : ∀ part ∈ parts, (part.map Prod.fst).Nodup) (h : ¬ IsObject ms parts) :
    ownProperties (wrap ms parts) = [] ∧ unionProperties ms parts = [] := by
  obtain ⟨hself, hpart⟩ := not_or.1 h
  have hnone : ∀ m ∈ ms :: parts.reverse, properties? m = none := by
    intro m hm
    rcases List.mem_cons.1 hm with rfl | hm
    · exact properties?_of_not_shaped hself
    · exact properties?_of_not_shaped fun hshaped => hpart ⟨m, List.mem_reverse.1 hm, hshaped⟩
  constructor
  · rw [ownProperties, properties?, get?_wrap hms hparts (by decide)]
    cases hget : (ms :: parts.reverse).findSome? (Keyed.get? · "properties") with
    | none => rfl
    | some v =>
      obtain ⟨m, hm, hv⟩ := List.exists_of_findSome?_eq_some hget
      have hmembers := hnone m hm
      rw [properties?, hv, Option.bind_some] at hmembers
      rw [Option.bind_some, hmembers]
      rfl
  · have hown : ownProperties ms = [] := by
      rw [ownProperties, hnone ms List.mem_cons_self]
      rfl
    have hothers : parts.flatMap ownProperties = [] := by
      refine List.flatMap_eq_nil_iff.2 fun part hmem => ?_
      rw [ownProperties, hnone part (List.mem_cons_of_mem _ (List.mem_reverse.2 hmem))]
      rfl
    rw [unionProperties_eq, hown, hothers, Keyed.update_nil]

theorem ownProperties_joined {ms : Members} (h : (Json.obj ms).Proper) : ownProperties (joined ms) =
    Keyed.update (ownProperties ms) (((schemas? "allOf" ms).getD []).flatMap fun x => propertiesOf (resolve x)) := by
  unfold joined
  cases hxs : schemas? "allOf" ms with
  | none => rfl
  | some xs =>
    rw [Option.getD_some, ← flatMap_objects, ← unionProperties_eq]
    by_cases hobject : IsObject ms (objects xs)
    · exact ownProperties_join hobject
    · obtain ⟨hwrap, hunion⟩ :=
        ownProperties_wrap (proper_obj_iff.1 h).1 (nodup_of_mem_objects h hxs) hobject
      rw [hunion, ← hwrap]
      exact congrArg ownProperties (if_neg hobject)

theorem ownProperties_withVariants (keyword : Text) (ms base : Members) :
    ownProperties (withVariants keyword ms base) = Keyed.update (ownProperties base)
      (if Offers keyword ms then
        ((schemas? keyword ms).getD []).flatMap fun x => propertiesOf (resolve x) else []) := by
  rw [withVariants_eq]
  by_cases h : Offers keyword ms
  · rw [if_pos h, if_pos h, ← flatMap_objects, ← unionProperties_eq]
    exact ownProperties_unite keyword base _
  · rw [if_neg h, if_neg h]
    rfl

/-! ## All steps -/

/-- The properties of a resolved schema are those that are contributed to it, one after the other. -/
theorem propertiesOf_resolve {s : Json} (h : s.Proper) : propertiesOf (resolve s) = Keyed.ofList (contributed s) := by
  induction s using composed_induction with
  | other j hj =>
    have hcontributed : contributed j = [] := by cases j <;> first | rfl | cases hj
    rw [resolve_of_members?_none hj, propertiesOf, hj, hcontributed]
    rfl
  | obj ms ih =>
    have hflat (keyword : Text) (es : Members) : Keyed.update es (((schemas? keyword ms).getD []).flatMap
        fun x => propertiesOf (resolve x)) = Keyed.update es (contributedIn keyword ms) := by
      rw [contributedIn_eq]
      refine update_flatMap_ofList (fun x hx => ?_) es
      cases hxs : schemas? keyword ms with
      | none => simp [hxs] at hx
      | some xs =>
        have hx : x ∈ xs := by simpa [hxs] using hx
        exact ih keyword xs hxs x hx (proper_of_mem_schemas h hxs hx)
    have hvariants (keyword : Text) (base : Members) : ownProperties (withVariants keyword ms base) =
        Keyed.update (ownProperties base) (if Offers keyword ms then contributedIn keyword ms else []) := by
      rw [ownProperties_withVariants]
      split
      · exact hflat keyword _
      · rfl
    have hown (ns : Members) : Keyed.ofList (ownProperties ms ++ ns) = Keyed.update (ownProperties ms) ns := by
      rw [Keyed.ofList, Keyed.update_append, ← Keyed.ofList,
        Keyed.ofList_of_nodup (proper_obj_iff.1 (proper_ownProperties h)).1]
    calc propertiesOf (resolve (.obj ms))
      _ = ownProperties (view ms) := by rw [resolve_obj]; rfl
      _ = Keyed.update (ownProperties ms) (contributedIn "allOf" ms
            ++ (if Offers "oneOf" ms then contributedIn "oneOf" ms else [])
            ++ (if Offers "anyOf" ms then contributedIn "anyOf" ms else [])) := by
        rw [view, hvariants, hvariants, ownProperties_joined h, hflat, Keyed.update_append, Keyed.update_append]
      _ = Keyed.ofList (contributed (.obj ms)) := by
        simp only [contributed, List.append_assoc, hown]

/-- A resolved schema has the properties of the schema itself, of its parts and of the variants that are united, no
other and each of them once. The names stand in the order in which they are first contributed, and under a name
is what the last contributor says. -/
theorem resolved_properties (s : Json) (h : s.Proper) :
    propertiesOf (resolve s) = Keyed.ofList (contributed s) ∧
      (∀ name, name ∈ (propertiesOf (resolve s)).map Prod.fst ↔ name ∈ (contributed s).map Prod.fst) ∧
      ∀ name, Keyed.get? (propertiesOf (resolve s)) name = Keyed.last? (contributed s) name := by
  have hall := propertiesOf_resolve h
  refine ⟨hall, fun name => ?_, fun name => ?_⟩
  · rw [hall, Keyed.mem_map_fst_ofList]
  · rw [hall, Keyed.get?_ofList]

/-- A part and a variant have names that the schema has already, and the variants of the other keyword cannot be
united. -/
theorem resolved_properties_overlap :
    let text : Json := .obj [("type", .str "string")]
    let part : Json := .obj [("properties", .obj [("id", text), ("name", .obj [])])]
    let ms : Members := [("properties", .obj [("id", .obj [])]), ("allOf", .arr [part]),
      ("oneOf", .arr [.obj [("properties", .obj [("card", .obj [])])], .obj [("properties", .obj [("name", text)])]]),
      ("anyOf", .arr [text])]
    (Json.obj ms).Proper ∧ (contributed (.obj ms)).map Prod.fst = ["id", "id", "name", "card", "name"] ∧
      (propertiesOf (resolve (.obj ms))).map Prod.fst = ["id", "name", "card"] ∧
      Keyed.get? (propertiesOf (resolve (.obj ms))) "id" = some text ∧
      Keyed.get? (propertiesOf (resolve (.obj ms))) "name" = some text := by
  intro text part ms
  have hproper : (Json.obj ms).Proper := by simp [ms, part, text, Proper, ProperMembers, ProperItems]
  have hone : Offers "oneOf" ms := by decide +kernel
  have hany : ¬ Offers "anyOf" ms := by decide +kernel
  have hcontributed : contributed (.obj ms) =
      ([("id", .obj []), ("id", text), ("name", .obj []), ("card", .obj []), ("name", text)] : List (Text × Json)) := by
    rw [contributed, if_pos hone, if_neg hany]
    rfl
  obtain ⟨hall, -, hlast⟩ := resolved_properties (.obj ms) hproper
  have hid := hlast "id"
  have hname := hlast "name"
  rw [hcontributed] at hall hid hname
  exact ⟨hproper, by rw [hcontributed]; rfl, by rw [hall]; rfl, hid, hname⟩

end DocPages.Schema
