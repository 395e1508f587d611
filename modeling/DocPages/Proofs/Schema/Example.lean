import DocPages.Proofs.Schema.Properties
import DocPages.Schema.Example

/-!
# Examples and properties

The example of a schema and its resolution go through the parts in ways of their own. The example of a schema with
parts is put together from the examples of these alone, and only a schema that counts as an object gives one with
names. So the names in an example are those that schemas without parts declare as objects, while the resolution has
the names that any part declares. Both agree where each name is declared by a schema of the first kind.
-/

namespace DocPages.Schema

open Json

/-- The parts of a schema, none unless they are a list. -/
def partsOf (ms : Members) : List Json := (schemas? "allOf" ms).getD []

theorem mem_partsOf_iff {ms : Members} {x : Json} : x ∈ partsOf ms ↔ ∃ xs, schemas? "allOf" ms = some xs ∧ x ∈ xs := by
  rw [partsOf]
  cases schemas? "allOf" ms <;> simp

/-- A schema is a part of itself, and so are the parts of its parts. -/
inductive PartOf : Json → Json → Prop where
  | self (s : Json) : PartOf s s
  | inside {t x : Json} {ms : Members} (hx : x ∈ partsOf ms) (h : PartOf t x) : PartOf t (.obj ms)

theorem partOf_obj_iff {t : Json} {ms : Members} :
    PartOf t (.obj ms) ↔ t = .obj ms ∨ ∃ x ∈ partsOf ms, PartOf t x := by
  constructor
  · rintro (_ | ⟨hx, h⟩)
    · exact .inl rfl
    · exact .inr ⟨_, hx, h⟩
  · rintro (rfl | ⟨x, hx, h⟩)
    · exact .self _
    · exact .inside hx h

/-- Something holds of a part of a schema if it holds of the schema or of a part of one of its parts. -/
theorem exists_partOf_iff {P : Members → Prop} {ms : Members} :
    (∃ ns, PartOf (.obj ns) (.obj ms) ∧ P ns) ↔ P ms ∨ ∃ x ∈ partsOf ms, ∃ ns, PartOf (.obj ns) x ∧ P ns := by
  constructor
  · rintro ⟨ns, hns, hP⟩
    rcases partOf_obj_iff.1 hns with heq | ⟨x, hx, hns⟩
    · obtain rfl := Json.obj.inj heq
      exact .inl hP
    · exact .inr ⟨x, hx, ns, hns, hP⟩
  · rintro (hP | ⟨x, hx, ns, hns, hP⟩)
    · exact ⟨ms, .self _, hP⟩
    · exact ⟨ns, .inside hx hns, hP⟩

theorem forall_partOf_iff {P : Members → Prop} {ms : Members} :
    (∀ ns, PartOf (.obj ns) (.obj ms) → P ns) ↔ P ms ∧ ∀ x ∈ partsOf ms, ∀ ns, PartOf (.obj ns) x → P ns := by
  have hnot := not_congr (@exists_partOf_iff (¬ P ·) ms)
  push Not at hnot
  exact hnot

theorem not_partOf_of_members?_none {j : Json} (h : j.members? = none) (ns : Members) : ¬ PartOf (.obj ns) j := by
  rintro (_ | _) <;> cases h

/-- Keywords that stand in the way of an example made up after types and parts. -/
def choiceKeywords : List Text := ["oneOf", "anyOf", "enum", "example", "default"]

/-- The keywords of choice are nowhere in the schema and its parts. -/
def Plain (s : Json) : Prop := ∀ ms, PartOf (.obj ms) s → ∀ keyword ∈ choiceKeywords, Keyed.get? ms keyword = none

theorem Plain.part {ms : Members} (h : Plain (.obj ms)) {x : Json} (hx : x ∈ partsOf ms) : Plain x :=
  fun ns hns => h ns (.inside hx hns)

/-- A schema has no parts and counts as an object, so its properties have examples. -/
def Declares (ms : Members) (name : Text) : Prop :=
  partsOf ms = [] ∧ kind ms = .object ∧ name ∈ (ownProperties ms).map Prod.fst

/-- The names in a value, none if it is no object. -/
def namesOf (j : Json) : List Text := (j.members?.getD []).map Prod.fst

/-- What a schema has of itself or from its parts, it has exactly if a part at some depth has it of itself. -/
theorem iff_exists_part (Q : Json → Prop) (P : Members → Prop) (other : ∀ j, j.members? = none → ¬ Q j)
    (obj : ∀ ms, Plain (.obj ms) → (Q (.obj ms) ↔ P ms ∨ ∃ x ∈ partsOf ms, Q x)) {s : Json} (h : Plain s) :
    Q s ↔ ∃ ms, PartOf (.obj ms) s ∧ P ms := by
  induction s using composed_induction with
  | other j hj =>
    refine iff_of_false (other j hj) ?_
    rintro ⟨ms, hpart, -⟩
    exact not_partOf_of_members?_none hj ms hpart
  | obj ms ih =>
    rw [obj ms h, exists_partOf_iff]
    refine or_congr_right (exists_congr fun x => and_congr_right fun hx => ?_)
    obtain ⟨xs, hxs, hmem⟩ := mem_partsOf_iff.1 hx
    exact ih "allOf" xs hxs x hmem (h.part hx)

/-! ## The steps of an example -/

theorem exampleList_eq (xs : List Json) : exampleList xs = xs.map exampleOf := by
  induction xs with
  | nil => rfl
  | cons x xs ih => rw [exampleList, ih, List.map_cons]

theorem partExamples_eq (ms : Members) : partExamples ms = (schemas? "allOf" ms).map (List.map exampleOf) := by
  induction ms with
  | nil => rfl
  | cons m ms ih =>
    obtain ⟨k, v⟩ := m
    rw [schemas?_cons]
    by_cases h : k = "allOf".toList
    · cases v <;> simp only [partExamples, h, items?, exampleList_eq, if_true, Option.map_some, Option.map_none]
    · cases v <;> simp only [partExamples, h, Ne.symm h, ih, if_false]

theorem variantExample_eq (keyword : Text) (ms : Members) :
    variantExample keyword ms = ((schemas? keyword ms).bind List.head?).map exampleOf := by
  induction ms with
  | nil => rfl
  | cons m ms ih =>
    obtain ⟨k, v⟩ := m
    rw [schemas?_cons]
    by_cases h : k = keyword
    · rw [if_pos h.symm]
      cases v with
      | arr xs => cases xs <;> exact if_pos h
      | _ => exact if_pos h
    · rw [if_neg (Ne.symm h), ← ih]
      cases v with
      | arr xs => cases xs <;> exact if_neg h
      | _ => exact if_neg h

theorem variantExample_of_none {keyword : Text} {ms : Members} (h : Keyed.get? ms keyword = none) :
    variantExample keyword ms = none := by
  rw [variantExample_eq, schemas?_of_none h]
  rfl

theorem itemExample_eq (ms : Members) : itemExample ms = ((Keyed.get? ms "items").map exampleOf).getD (.str "string") := by
  induction ms with
  | nil => rfl
  | cons m ms ih =>
    obtain ⟨k, v⟩ := m
    rw [itemExample, Keyed.get?_cons]
    by_cases h : k = "items".toList
    · rw [if_pos h, if_pos h.symm]
      rfl
    · rw [if_neg h, if_neg (Ne.symm h), ih]

theorem memberExamples_eq (ps : Members) : memberExamples ps = ps.map fun p => (p.1, exampleOf p.2) := by
  induction ps with
  | nil => rfl
  | cons p ps ih =>
    obtain ⟨k, v⟩ := p
    rw [memberExamples, ih, List.map_cons]

theorem propertyExamples_eq (ms : Members) :
    propertyExamples ms = (ownProperties ms).map fun p => (p.1, exampleOf p.2) := by
  induction ms with
  | nil => rfl
  | cons m ms ih =>
    obtain ⟨k, v⟩ := m
    have hcons : ownProperties ((k, v) :: ms) =
        if "properties".toList = k then v.members?.getD [] else ownProperties ms := by
      rw [ownProperties, properties?, Keyed.get?_cons]
      split <;> rfl
    rw [hcons]
    by_cases h : k = "properties".toList
    · cases v <;> simp only [propertyExamples, h, members?, memberExamples_eq, if_true, Option.getD_some,
        Option.getD_none, List.map_nil]
    · cases v <;> simp only [propertyExamples, h, Ne.symm h, ih, if_false]

/-- The value that is made up after the type. -/
def typedExample (ms : Members) : Json :=
  match kind ms with
  | .object => .obj (propertyExamples ms)
  | .array => .arr [itemExample ms]
  | .string => stringExample ms
  | .number => .int 0
  | .boolean => .bool true
  | .null => .null
  | .other => .str "string"

theorem exampleOf_plain {ms : Members} (h : ∀ keyword ∈ choiceKeywords, Keyed.get? ms keyword = none) :
    exampleOf (.obj ms) =
      if partsOf ms = [] then typedExample ms else joinExamples ((partsOf ms).map exampleOf) := by
  have hlisted : firstListed? ms = none := by
    rw [firstListed?, h "enum" (by decide)]
    rfl
  rw [exampleOf, h "example" (by decide), h "default" (by decide), partExamples_eq,
    variantExample_of_none (h "oneOf" (by decide)), variantExample_of_none (h "anyOf" (by decide)), hlisted, partsOf]
  cases hxs : schemas? "allOf" ms with
  | none => rfl
  | some xs => cases xs <;> rfl

/-! ## The names in an example -/

theorem namesOf_of_members?_none {x : Json} (h : x.members? = none) : namesOf x = [] := by
  rw [namesOf, h]
  rfl

/-- The value of another kind that may stand in for no names has none either. -/
theorem namesOf_joinExamples (xs : List Json) :
    namesOf (joinExamples xs) = ((xs.filterMap Json.members?).foldl Keyed.update []).map Prod.fst := by
  unfold joinExamples
  dsimp only
  split
  · next x hmerged hlast =>
    have hx : x.members?.isNone = true := (List.mem_filter.1 (List.mem_of_getLast? hlast)).2
    rw [hmerged]
    split
    · rfl
    · exact namesOf_of_members?_none (Option.isNone_iff_eq_none.1 hx)
  · rfl

theorem mem_namesOf_joinExamples {xs : List Json} {name : Text} :
    name ∈ namesOf (joinExamples xs) ↔ ∃ x ∈ xs, name ∈ namesOf x := by
  have hmerged : (xs.filterMap Json.members?).foldl Keyed.update [] =
      Keyed.ofList ((xs.filterMap Json.members?).flatMap id) :=
    Keyed.foldl_update id (xs.filterMap Json.members?) []
  rw [namesOf_joinExamples, hmerged, Keyed.mem_map_fst_ofList, List.map_flatMap, List.mem_flatMap]
  constructor
  · rintro ⟨es, hes, hname⟩
    obtain ⟨x, hx, hmembers⟩ := List.mem_filterMap.1 hes
    exact ⟨x, hx, by rwa [namesOf, hmembers]⟩
  · rintro ⟨x, hx, hname⟩
    cases hmembers : x.members? with
    | none =>
      rw [namesOf_of_members?_none hmembers] at hname
      cases hname
    | some es =>
      rw [namesOf, hmembers] at hname
      exact ⟨es, List.mem_filterMap.2 ⟨x, hx, hmembers⟩, hname⟩

theorem exists_stringExample (ms : Members) : ∃ t, stringExample ms = .str t := by
  unfold stringExample
  split <;> exact ⟨_, rfl⟩

theorem namesOf_stringExample (ms : Members) : namesOf (stringExample ms) = [] := by
  obtain ⟨t, ht⟩ := exists_stringExample ms
  rw [ht]
  rfl

theorem mem_namesOf_typedExample {ms : Members} {name : Text} :
    name ∈ namesOf (typedExample ms) ↔ kind ms = .object ∧ name ∈ (ownProperties ms).map Prod.fst := by
  have hobject : namesOf (.obj (propertyExamples ms)) = (ownProperties ms).map Prod.fst := by
    rw [propertyExamples_eq]
    exact List.map_map
  unfold typedExample
  cases hkind : kind ms with
  | object => rw [hobject, and_iff_right rfl]
  | string => simp [namesOf_stringExample]
  | _ => simp [namesOf, members?]

/-- The names in an example are those that are declared somewhere. -/
theorem mem_namesOf_exampleOf {s : Json} (h : Plain s) (name : Text) :
    name ∈ namesOf (exampleOf s) ↔ ∃ ms, PartOf (.obj ms) s ∧ Declares ms name := by
  refine iff_exists_part (fun s => name ∈ namesOf (exampleOf s)) (Declares · name) (fun j hj => ?_) (fun ms h => ?_) h
  · have hstring : exampleOf j = .str "string" := by cases j <;> first | rfl | cases hj
    rw [hstring]
    exact List.not_mem_nil
  · rw [exampleOf_plain (h ms (.self _))]
    by_cases hparts : partsOf ms = []
    · rw [if_pos hparts, mem_namesOf_typedExample, Declares, hparts]
      simp
    · have hnot : ¬ Declares ms name := fun hdeclares => hparts hdeclares.1
      rw [if_neg hparts, mem_namesOf_joinExamples, or_iff_right hnot]
      simp only [List.mem_map, exists_exists_and_eq_and]

/-- The names that are contributed are those of the properties that any part has. -/
theorem mem_map_fst_contributed {s : Json} (h : Plain s) (name : Text) :
    name ∈ (contributed s).map Prod.fst ↔
      ∃ ms, PartOf (.obj ms) s ∧ name ∈ (ownProperties ms).map Prod.fst := by
  refine iff_exists_part (fun s => name ∈ (contributed s).map Prod.fst)
    (fun ms => name ∈ (ownProperties ms).map Prod.fst) (fun j hj => ?_) (fun ms h => ?_) h
  · have hnil : contributed j = [] := by cases j <;> first | rfl | cases hj
    rw [hnil]
    exact List.not_mem_nil
  · have hoffers (keyword : Text) (hkeyword : keyword ∈ choiceKeywords) : ¬ Offers keyword ms := by
      rintro ⟨xs, hxs, -⟩
      rw [schemas?_of_none (h ms (.self _) keyword hkeyword)] at hxs
      cases hxs
    rw [contributed, if_neg (hoffers "oneOf" (by decide)), if_neg (hoffers "anyOf" (by decide)), List.append_nil,
      List.append_nil, contributedIn_eq, List.map_append, List.mem_append, List.map_flatMap, List.mem_flatMap,
      partsOf]

/-- The names in the example of a schema without keywords of choice are those of the properties that its parts
declare. So the example is an object with just the names of the resolved schema if and only if each of these is
declared by a part. -/
theorem example_names_iff (s : Json) (h : s.Proper) (hplain : Plain s) (hne : propertiesOf (resolve s) ≠ []) :
    (∀ name, name ∈ namesOf (exampleOf s) ↔ ∃ ms, PartOf (.obj ms) s ∧ Declares ms name) ∧
      ((∃ es, exampleOf s = .obj es ∧
          ∀ name, name ∈ es.map Prod.fst ↔ name ∈ (propertiesOf (resolve s)).map Prod.fst) ↔
        ∀ ms, PartOf (.obj ms) s → ∀ name ∈ (ownProperties ms).map Prod.fst,
          ∃ ns, PartOf (.obj ns) s ∧ Declares ns name) := by
  have hexample := mem_namesOf_exampleOf hplain
  have hresolved (name : Text) : name ∈ (propertiesOf (resolve s)).map Prod.fst ↔
      ∃ ms, PartOf (.obj ms) s ∧ name ∈ (ownProperties ms).map Prod.fst := by
    rw [propertiesOf_resolve h, Keyed.mem_map_fst_ofList, mem_map_fst_contributed hplain]
  refine ⟨hexample, fun hsame ms hms name hname => ?_, fun hall => ?_⟩
  · obtain ⟨es, hes, hnames⟩ := hsame
    rw [← hexample, hes]
    exact (hnames name).2 ((hresolved name).2 ⟨ms, hms, hname⟩)
  · have hnames (name : Text) : name ∈ namesOf (exampleOf s) ↔ name ∈ (propertiesOf (resolve s)).map Prod.fst := by
      rw [hexample, hresolved]
      constructor
      · rintro ⟨ms, hms, hdeclares⟩
        exact ⟨ms, hms, hdeclares.2.2⟩
      · rintro ⟨ms, hms, hname⟩
        exact hall ms hms name hname
    -- A value of another kind has no names, but the resolved schema has one.
    obtain ⟨p, hp⟩ := List.exists_mem_of_ne_nil _ hne
    have hp : p.1 ∈ namesOf (exampleOf s) := (hnames p.1).2 (List.mem_map_of_mem hp)
    cases hes : (exampleOf s).members? with
    | none =>
      rw [namesOf_of_members?_none hes] at hp
      cases hp
    | some es =>
      refine ⟨es, members?_eq_some_iff.1 hes, fun name => ?_⟩
      rw [← hnames, namesOf, hes, Option.getD_some]

/-- A schema whose own property a part has once more, with a part within a part. -/
theorem example_names_iff_nested :
    let named : Members := [("properties", .obj [("name", .obj [])])]
    let nested : Members := [("allOf", .arr [.obj named])]
    let typed : Members := [("properties", .obj [("id", .obj [("type", .str "integer")])])]
    let ms : Members := [("properties", .obj [("id", .obj [])]), ("allOf", .arr [.obj typed, .obj nested])]
    (Json.obj ms).Proper ∧ Plain (.obj ms) ∧ propertiesOf (resolve (.obj ms)) ≠ [] ∧
      ∃ es, exampleOf (.obj ms) = .obj es ∧
        ∀ name, name ∈ es.map Prod.fst ↔ name ∈ (propertiesOf (resolve (.obj ms))).map Prod.fst := by
  intro named nested typed ms
  have hproper : (Json.obj ms).Proper := by simp [ms, typed, nested, named, Proper, ProperMembers, ProperItems]
  have hparts : partsOf ms = [.obj typed, .obj nested] ∧ partsOf typed = [] ∧ partsOf nested = [.obj named] ∧
      partsOf named = [] := ⟨rfl, rfl, rfl, rfl⟩
  have hall (P : Members → Prop) :
      (∀ ns, PartOf (.obj ns) (.obj ms) → P ns) ↔ P ms ∧ P typed ∧ P nested ∧ P named := by
    simp only [forall_partOf_iff, hparts, List.forall_mem_cons, List.not_mem_nil, false_imp_iff, implies_true, and_true]
  have hplain : Plain (.obj ms) := (hall _).2 (by decide)
  have htyped : PartOf (.obj typed) (.obj ms) := .inside (by simp [hparts]) (.self _)
  have hnested : PartOf (.obj named) (.obj nested) := .inside (by simp [hparts]) (.self _)
  have hnamed : PartOf (.obj named) (.obj ms) := .inside (by simp [hparts]) hnested
  have hid : ∃ ns, PartOf (.obj ns) (.obj ms) ∧ Declares ns "id" := ⟨typed, htyped, rfl, by decide, by decide⟩
  have hname : ∃ ns, PartOf (.obj ns) (.obj ms) ∧ Declares ns "name" := ⟨named, hnamed, rfl, by decide, by decide⟩
  have hne : propertiesOf (resolve (.obj ms)) ≠ [] := mt List.isEmpty_iff.2 (by decide +kernel)
  refine ⟨hproper, hplain, hne, (example_names_iff _ hproper hplain hne).2.2 ((hall _).2 ⟨?_, ?_, ?_, ?_⟩)⟩
  · exact List.forall_mem_singleton.2 hid
  · exact List.forall_mem_singleton.2 hid
  · exact fun name hname => absurd hname List.not_mem_nil
  · exact List.forall_mem_singleton.2 hname

/-- A schema has a property besides its part. The resolution has both names, but the example only that of the part. -/
theorem example_lacks_own_property :
    let s : Json := .obj [("properties", .obj [("id", .obj [("type", .str "string")])]),
      ("allOf", .arr [.obj [("properties", .obj [("name", .obj [("type", .str "string")])])]])]
    s.Proper ∧ Plain s ∧ propertiesOf (resolve s) ≠ [] ∧
      ¬ ∃ es, exampleOf s = .obj es ∧
        ∀ name, name ∈ es.map Prod.fst ↔ name ∈ (propertiesOf (resolve s)).map Prod.fst := by
  intro s
  have hproper : s.Proper := by simp [s, Proper, ProperMembers, ProperItems]
  have hexample : exampleOf s = .obj [("name", .str "string")] := rfl
  have hid : "id".toList ∈ (propertiesOf (resolve s)).map Prod.fst := by decide +kernel
  have hne : propertiesOf (resolve s) ≠ [] := mt List.isEmpty_iff.2 (by decide +kernel)
  refine ⟨hproper, ?_, hne, ?_⟩
  · refine forall_partOf_iff.2 ⟨by decide, fun x hx => ?_⟩
    obtain rfl := List.mem_singleton.1 hx
    exact forall_partOf_iff.2 ⟨by decide, fun _ hy => absurd hy List.not_mem_nil⟩
  · rintro ⟨es, hes, hnames⟩
    obtain rfl := Json.obj.inj (hexample.symm.trans hes)
    exact absurd ((hnames "id".toList).2 hid) (by decide)

end DocPages.Schema
