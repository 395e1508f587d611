import DocPages.Proofs.Json.Equality
import DocPages.Proofs.Schema.Example

/-!
# Examples conform

What a value has to meet is written down keyword by keyword, without a look at how an example is made. An example
meets all of it for the schemas that are put together in a regular way: values of a type, objects with all of their
properties, arrays, listed values, variants, and objects joined from parts that share no names. The joined object
meets each part because a larger object still has what the part asks for.
-/

namespace DocPages.Schema

open Json

variable {ms : Members}

/-- Whether a value is of the type with the given name. -/
def isOfType (type : Text) : Json → Bool
  | .null => type == "null".toList
  | .bool _ => type == "boolean".toList
  | .int _ => type == "integer".toList || type == "number".toList
  | .double _ => type == "number".toList
  | .str _ => type == "string".toList
  | .arr _ => type == "array".toList
  | .obj _ => type == "object".toList

theorem ownProperties_of_some {ps : Members} (h : Keyed.get? ms "properties" = some (.obj ps)) :
    ownProperties ms = ps := by
  rw [ownProperties, properties?, h]
  rfl

theorem sizeOf_lt_of_mem_ownProperties {p : Text × Json} (h : p ∈ ownProperties ms) :
    sizeOf p.2 < sizeOf (Json.obj ms) := by
  cases hps : properties? ms with
  | none =>
    rw [ownProperties, hps] at h
    cases h
  | some ps =>
    obtain ⟨v, hget, hv⟩ := Option.bind_eq_some_iff.1 hps
    obtain rfl := members?_eq_some_iff.1 hv
    rw [ownProperties_of_some hget] at h
    exact (sizeOf_lt_of_mem_members h).trans (sizeOf_lt_of_mem_members (Keyed.mem_of_get? hget))

theorem sizeOf_lt_of_mem_schemas {keyword : Text} {xs : List Json} {x : Json} (h : schemas? keyword ms = some xs)
    (hx : x ∈ xs) : sizeOf x < sizeOf (Json.obj ms) :=
  (sizeOf_lt_of_mem_items hx).trans (sizeOf_lt_of_mem_members (Keyed.mem_of_get? (schemas?_eq_some_iff.1 h)))

/-- The value meets what the schema says under each keyword. All properties that are declared must be there, be
they required or not. -/
def Conforms : Json → Json → Prop
  | .obj ms, x =>
    (∀ type, Keyed.get? ms "type" = some (.str type) → isOfType type x = true) ∧
    (∀ p ∈ ownProperties ms, ∃ v, x.member? p.1 = some v ∧ Conforms p.2 v) ∧
    (∀ item, Keyed.get? ms "items" = some item → ∀ y ∈ x.items?.getD [], Conforms item y) ∧
    (∀ xs, schemas? "enum" ms = some xs → x ∈ xs) ∧
    (∀ keyword ∈ ["oneOf".toList, "anyOf".toList], ∀ xs, schemas? keyword ms = some xs →
      ∃ s, ∃ _ : s ∈ xs, Conforms s x) ∧
    (∀ xs, schemas? "allOf" ms = some xs → ∀ s ∈ xs, Conforms s x)
  | _, _ => True
  termination_by s => sizeOf s
  decreasing_by
    · exact sizeOf_lt_of_mem_ownProperties ‹_›
    · exact sizeOf_lt_of_mem_members (Keyed.mem_of_get? ‹_›)
    · exact sizeOf_lt_of_mem_schemas ‹_› ‹_›
    · exact sizeOf_lt_of_mem_schemas ‹_› ‹_›

/-- A schema with members under these keywords only. -/
def Only (keywords : List Text) (ms : Members) : Prop := ∀ m ∈ ms, m.1 ∈ keywords

instance (keywords : List Text) (ms : Members) : Decidable (Only keywords ms) :=
  inferInstanceAs (Decidable (∀ m ∈ ms, m.1 ∈ keywords))

/-- A schema in itself or a part of it has a property with the name. -/
def Names (s : Json) (name : Text) : Prop := ∃ ms, PartOf (.obj ms) s ∧ name ∈ (ownProperties ms).map Prod.fst

/-- An object with properties, or one that is joined from parts. -/
def IsComposed (s : Json) : Prop := ∃ v, s.member? "properties" = some v ∨ s.member? "allOf" = some v

/-- Schemas that are put together in a regular way. -/
inductive Regular : Json → Prop where
  | typed {ms : Members} {type : Text} (only : Only ["type", "format"] ms)
    (named : Keyed.get? ms "type" = some (.str type))
    (simple : type ∈ ["string".toList, "number".toList, "integer".toList, "boolean".toList, "null".toList]) :
    Regular (.obj ms)
  | object {ms ps : Members} (only : Only ["type", "properties", "required"] ms)
    (named : Keyed.get? ms "type" = some (.str "object"))
    (properties : Keyed.get? ms "properties" = some (.obj ps)) (nodup : (ps.map Prod.fst).Nodup)
    (regular : ∀ p ∈ ps, Regular p.2) : Regular (.obj ms)
  | array {ms : Members} {item : Json} (only : Only ["type", "items"] ms)
    (named : Keyed.get? ms "type" = some (.str "array"))
    (items : Keyed.get? ms "items" = some item) (regular : Regular item) : Regular (.obj ms)
  | listed {ms : Members} {xs : List Json} (only : Only ["enum"] ms)
    (listed : Keyed.get? ms "enum" = some (.arr xs)) (ne : xs ≠ []) : Regular (.obj ms)
  | varied {ms : Members} {keyword : Text} {xs : List Json} (hkeyword : keyword ∈ ["oneOf".toList, "anyOf".toList])
    (only : Only [keyword] ms) (variants : Keyed.get? ms keyword = some (.arr xs)) (ne : xs ≠ [])
    (regular : ∀ x ∈ xs, Regular x) : Regular (.obj ms)
  | joined {ms : Members} {xs : List Json} (only : Only ["allOf"] ms)
    (parts : Keyed.get? ms "allOf" = some (.arr xs)) (ne : xs ≠ [])
    (regular : ∀ x ∈ xs, Regular x)
    (composed : ∀ x ∈ xs, IsComposed x)
    (disjoint : xs.Pairwise fun x y => ∀ name, Names x name → ¬ Names y name) : Regular (.obj ms)

/-! ## One schema -/

theorem Only.get?_eq_none {keywords : List Text} (h : Only keywords ms) {k : Text} (hk : k ∉ keywords) :
    Keyed.get? ms k = none := by
  refine Keyed.get?_eq_none_iff.2 fun hmem => ?_
  obtain ⟨m, hm, rfl⟩ := List.mem_map.1 hmem
  exact hk (h m hm)

theorem Only.mem {keywords : List Text} (h : Only keywords ms) {k : Text} {v : Json}
    (hv : Keyed.get? ms k = some v) : k ∈ keywords :=
  h _ (Keyed.mem_of_get? hv)

theorem eq_of_schemas? {k : Text} {xs ys : List Json} (hys : schemas? k ms = some ys)
    (hxs : Keyed.get? ms k = some (.arr xs)) : ys = xs :=
  Json.arr.inj (Option.some.inj ((schemas?_eq_some_iff.1 hys).symm.trans hxs))

/-- Only the keywords that a schema has need to be looked at. -/
theorem conforms_of_only {keywords : List Text} (h : Only keywords ms) {x : Json}
    (type : "type".toList ∉ keywords ∨ ∀ t, Keyed.get? ms "type" = some (.str t) → isOfType t x = true)
    (properties : "properties".toList ∉ keywords ∨
      ∀ p ∈ ownProperties ms, ∃ v, x.member? p.1 = some v ∧ Conforms p.2 v)
    (items : "items".toList ∉ keywords ∨
      ∀ item, Keyed.get? ms "items" = some item → ∀ y ∈ x.items?.getD [], Conforms item y)
    (enum : "enum".toList ∉ keywords ∨ ∀ xs, schemas? "enum" ms = some xs → x ∈ xs)
    (variants : (∀ k ∈ ["oneOf".toList, "anyOf".toList], k ∉ keywords) ∨
      ∀ k ∈ keywords, ∀ xs, schemas? k ms = some xs → ∃ s ∈ xs, Conforms s x)
    (parts : "allOf".toList ∉ keywords ∨ ∀ xs, schemas? "allOf" ms = some xs → ∀ s ∈ xs, Conforms s x) :
    Conforms (.obj ms) x := by
  have hlisted {k : Text} {xs : List Json} (hxs : schemas? k ms = some xs) : k ∈ keywords :=
    h.mem (schemas?_eq_some_iff.1 hxs)
  rw [Conforms]
  refine ⟨fun t ht => type.resolve_left (not_not.2 (h.mem ht)) t ht, ?_,
    fun i hi => items.resolve_left (not_not.2 (h.mem hi)) i hi,
    fun xs hxs => enum.resolve_left (not_not.2 (hlisted hxs)) xs hxs, fun k hk xs hxs => ?_,
    fun xs hxs => parts.resolve_left (not_not.2 (hlisted hxs)) xs hxs⟩
  · rcases properties with hnot | hall
    · rw [ownProperties_of_none (h.get?_eq_none hnot)]
      intro p hp
      cases hp
    · exact hall
  · rcases variants with hnot | hall
    · exact absurd (hlisted hxs) (hnot k hk)
    · obtain ⟨s, hs, hc⟩ := hall k (hlisted hxs) xs hxs
      exact ⟨s, hs, hc⟩

theorem kind_of_type {type : Text} (h : Keyed.get? ms "type" = some (.str type)) (hne : type ≠ []) :
    kind ms = Kind.ofName type := by
  have hnamed : namedType ms = .str type := by rw [namedType, h]; rfl
  have htruthy : (Json.str type).isTruthy = true := by simpa [isTruthy] using hne
  rw [kind, hnamed]
  exact (if_pos htruthy).trans rfl

/-- The example of a schema without parts, and without a value of its own: a variant, a listed value or one made up. -/
theorem exampleOf_of_only {keywords : List Text} (only : Only keywords ms)
    (hk : ∀ k ∈ ["example".toList, "default".toList, "allOf".toList], k ∉ keywords) :
    exampleOf (.obj ms) =
      (((variantExample "oneOf" ms).or (variantExample "anyOf" ms)).or (firstListed? ms)).getD (typedExample ms) := by
  have hnone (k : Text) (hmem : k ∈ ["example".toList, "default".toList, "allOf".toList]) :
      Keyed.get? ms k = none := only.get?_eq_none (hk k hmem)
  rw [exampleOf, hnone "example" (by decide), hnone "default" (by decide), partExamples_eq,
    schemas?_of_none (hnone "allOf" (by decide))]
  cases variantExample "oneOf" ms <;> cases variantExample "anyOf" ms <;> cases firstListed? ms <;> rfl

/-- The example of a schema that names a type and has none of the keywords that come first. -/
theorem exampleOf_typed {keywords : List Text} (only : Only keywords ms)
    (hk : ∀ k ∈ "allOf".toList :: choiceKeywords, k ∉ keywords) : exampleOf (.obj ms) = typedExample ms := by
  have hnone (k : Text) (hmem : k ∈ "allOf".toList :: choiceKeywords) : Keyed.get? ms k = none :=
    only.get?_eq_none (hk k hmem)
  have hlisted : firstListed? ms = none := by rw [firstListed?, hnone "enum" (by decide)]; rfl
  rw [exampleOf_of_only only fun k hmem => hk k (by revert k; decide),
    variantExample_of_none (hnone "oneOf" (by decide)), variantExample_of_none (hnone "anyOf" (by decide)), hlisted]
  rfl

theorem isOfType_typedExample {type : Text} (named : Keyed.get? ms "type" = some (.str type))
    (simple : type ∈ ["string".toList, "number".toList, "integer".toList, "boolean".toList, "null".toList]) :
    isOfType type (typedExample ms) = true := by
  have hne : type ≠ [] := by
    rintro rfl
    revert simple
    decide
  rw [typedExample, kind_of_type named hne]
  simp only [List.mem_cons, List.not_mem_nil, or_false] at simple
  rcases simple with rfl | rfl | rfl | rfl | rfl
  · obtain ⟨t, ht⟩ := exists_stringExample ms
    exact (congrArg (isOfType _) ht).trans rfl
  all_goals rfl

/-- The example of an object has each property, with the example of what it is declared as. -/
theorem exampleOf_object {ps : Members} (only : Only ["type", "properties", "required"] ms)
    (named : Keyed.get? ms "type" = some (.str "object"))
    (properties : Keyed.get? ms "properties" = some (.obj ps)) :
    exampleOf (.obj ms) = .obj (ps.map fun p => (p.1, exampleOf p.2)) := by
  rw [exampleOf_typed only (by decide), typedExample, kind_of_type named (by decide)]
  exact congrArg Json.obj ((propertyExamples_eq ms).trans (by rw [ownProperties_of_some properties]))

theorem itemExample_of_some {item : Json} (h : Keyed.get? ms "items" = some item) :
    itemExample ms = exampleOf item := by
  rw [itemExample_eq, h]
  rfl

theorem variantExample_of_some {keyword : Text} {x : Json} {xs : List Json}
    (h : Keyed.get? ms keyword = some (.arr (x :: xs))) : variantExample keyword ms = some (exampleOf x) := by
  rw [variantExample_eq, schemas?_eq_some_iff.2 h]
  rfl

/-- The example of a schema with variants only is that of the first. -/
theorem exampleOf_varied {keyword : Text} {x : Json} {xs : List Json}
    (hkeyword : keyword ∈ ["oneOf".toList, "anyOf".toList]) (only : Only [keyword] ms)
    (variants : Keyed.get? ms keyword = some (.arr (x :: xs))) : exampleOf (.obj ms) = exampleOf x := by
  have hvariant := variantExample_of_some variants
  simp only [List.mem_cons, List.not_mem_nil, or_false] at hkeyword
  rcases hkeyword with rfl | rfl
  · rw [exampleOf_of_only only (by decide), hvariant]
    rfl
  · rw [exampleOf_of_only only (by decide), variantExample_of_none (only.get?_eq_none (by decide)), hvariant]
    rfl

/-- The example of a schema with listed values only is the first of them. -/
theorem exampleOf_listed {x : Json} {xs : List Json} (only : Only ["enum"] ms)
    (listed : Keyed.get? ms "enum" = some (.arr (x :: xs))) : exampleOf (.obj ms) = x := by
  have hfirst : firstListed? ms = some x := by rw [firstListed?, listed]; rfl
  rw [exampleOf_of_only only (by decide), variantExample_of_none (only.get?_eq_none (by decide)),
    variantExample_of_none (only.get?_eq_none (by decide)), hfirst]
  rfl

/-! ## Objects joined from parts -/

theorem IsComposed.mem_or_mem {keywords : List Text} (hc : IsComposed (.obj ms)) (h : Only keywords ms) :
    "properties".toList ∈ keywords ∨ "allOf".toList ∈ keywords := by
  obtain ⟨v, hv⟩ := hc
  exact hv.imp h.mem h.mem

/-- Induction over the composed schemas: objects, and what is joined from such. -/
theorem Regular.composed_induction {P : Json → Prop}
    (object : ∀ {ms ps : Members}, Only ["type", "properties", "required"] ms →
      Keyed.get? ms "type" = some (.str "object") → Keyed.get? ms "properties" = some (.obj ps) →
      (ps.map Prod.fst).Nodup → P (.obj ms))
    (joined : ∀ {ms : Members} {xs : List Json}, Only ["allOf"] ms → Keyed.get? ms "allOf" = some (.arr xs) →
      xs ≠ [] → (xs.Pairwise fun x y => ∀ name, Names x name → ¬ Names y name) → (∀ x ∈ xs, P x) → P (.obj ms))
    {s : Json} (hs : Regular s) (hc : IsComposed s) : P s := by
  induction hs with
  | object only named properties nodup => exact object only named properties nodup
  | joined only parts ne regular composed disjoint ih =>
    exact joined only parts ne disjoint fun x hx => ih x hx (composed x hx)
  | varied hkeyword only =>
    simp only [List.mem_cons, List.not_mem_nil, or_false] at hkeyword
    rcases hkeyword with rfl | rfl <;> exact absurd (hc.mem_or_mem only) (by decide)
  | _ => exact absurd (hc.mem_or_mem ‹_›) (by decide)

/-- A larger object meets what a composed schema asks for. -/
theorem Conforms.extend {s : Json} (hs : Regular s) (hc : IsComposed s) {es fs : Members}
    (hext : ∀ k v, Keyed.get? es k = some v → Keyed.get? fs k = some v) (h : Conforms s (.obj es)) :
    Conforms s (.obj fs) := by
  refine Regular.composed_induction (P := fun s => Conforms s (.obj es) → Conforms s (.obj fs))
    (fun only _ _ _ h => ?_) (fun only parts _ _ ih h => ?_) hs hc h
  · rw [Conforms] at h
    refine conforms_of_only only (.inr h.1) (.inr fun p hp => ?_) (.inl (by decide)) (.inl (by decide))
      (.inl (by decide)) (.inl (by decide))
    obtain ⟨v, hv, hp⟩ := h.2.1 p hp
    exact ⟨v, hext p.1 v hv, hp⟩
  · rw [Conforms] at h
    refine conforms_of_only only (.inl (by decide)) (.inl (by decide)) (.inl (by decide)) (.inl (by decide))
      (.inl (by decide)) (.inr fun ys hys y hy => ?_)
    obtain rfl := eq_of_schemas? hys parts
    exact ih y hy (h.2.2.2.2.2 ys hys y hy)

/-- The names of an object's own properties are names of it. -/
theorem names_of_mem {name : Text} (h : name ∈ (ownProperties ms).map Prod.fst) : Names (.obj ms) name :=
  ⟨ms, .self _, h⟩

theorem Names.of_part {xs : List Json} (parts : Keyed.get? ms "allOf" = some (.arr xs)) {x : Json} (hx : x ∈ xs)
    {name : Text} (h : Names x name) : Names (.obj ms) name := by
  obtain ⟨ns, hns, hname⟩ := h
  exact ⟨ns, .inside (mem_partsOf_iff.2 ⟨xs, schemas?_eq_some_iff.2 parts, hx⟩) hns, hname⟩

/-- The members of an object, none of another value. -/
def membersOf (x : Json) : Members := x.members?.getD []

theorem joinExamples_of_objects {xs : List Json} (h : ∀ x ∈ xs, ∃ es, x = .obj es) :
    joinExamples xs = .obj (Keyed.ofList (xs.flatMap membersOf)) := by
  have hothers : xs.filter (fun x => x.members?.isNone) = [] := by
    refine List.filter_eq_nil_iff.2 fun x hx => ?_
    obtain ⟨es, rfl⟩ := h x hx
    exact Bool.false_ne_true
  have hobjects : xs.filterMap Json.members? = xs.map membersOf := by
    rw [← List.filterMap_eq_map]
    refine List.filterMap_congr fun x hx => ?_
    obtain ⟨es, rfl⟩ := h x hx
    rfl
  have hmerged : (xs.filterMap Json.members?).foldl Keyed.update [] = Keyed.ofList (xs.flatMap membersOf) := by
    rw [hobjects, List.foldl_map]
    exact Keyed.foldl_update membersOf xs []
  rw [joinExamples, hothers, hmerged]
  cases Keyed.ofList (xs.flatMap membersOf) <;> rfl

/-- The examples of parts that share no names stand one after the other in that of the whole. -/
theorem exampleOf_joined {xs : List Json} (only : Only ["allOf"] ms)
    (parts : Keyed.get? ms "allOf" = some (.arr xs)) (ne : xs ≠ [])
    (objects : ∀ x ∈ xs, ∃ es, exampleOf x = .obj es ∧ (es.map Prod.fst).Nodup ∧ ∀ name ∈ es.map Prod.fst, Names x name)
    (disjoint : xs.Pairwise fun x y => ∀ name, Names x name → ¬ Names y name) :
    exampleOf (.obj ms) = .obj (xs.flatMap fun x => membersOf (exampleOf x)) ∧
      ((xs.flatMap fun x => membersOf (exampleOf x)).map Prod.fst).Nodup := by
  have hparts : partsOf ms = xs := by rw [partsOf, schemas?_eq_some_iff.2 parts, Option.getD_some]
  have hmembers {x : Json} (hx : x ∈ xs) : ((membersOf (exampleOf x)).map Prod.fst).Nodup ∧
      ∀ name ∈ (membersOf (exampleOf x)).map Prod.fst, Names x name := by
    obtain ⟨es, hes, hnodup, hnames⟩ := objects x hx
    rw [hes]
    exact ⟨hnodup, hnames⟩
  have hnodup : ((xs.flatMap fun x => membersOf (exampleOf x)).map Prod.fst).Nodup := by
    rw [List.map_flatMap, List.nodup_flatMap]
    refine ⟨fun x hx => (hmembers hx).1, disjoint.imp_of_mem fun hx hy hxy name hname hname' => ?_⟩
    exact hxy name ((hmembers hx).2 name hname) ((hmembers hy).2 name hname')
  refine ⟨?_, hnodup⟩
  rw [exampleOf_plain fun k hk => only.get?_eq_none (by revert k; decide), hparts, if_neg ne,
    joinExamples_of_objects, List.flatMap_map, Keyed.ofList_of_nodup hnodup]
  intro y hy
  obtain ⟨x, hx, rfl⟩ := List.mem_map.1 hy
  obtain ⟨es, hes, -⟩ := objects x hx
  exact ⟨es, hes⟩

/-- The example of a composed schema is an object, with each name once, and the schema has all of its names. -/
theorem exists_members_exampleOf {s : Json} (hs : Regular s) (hc : IsComposed s) :
    ∃ es, exampleOf s = .obj es ∧ (es.map Prod.fst).Nodup ∧ ∀ name ∈ es.map Prod.fst, Names s name := by
  refine Regular.composed_induction (P := fun s => ∃ es, exampleOf s = .obj es ∧ (es.map Prod.fst).Nodup ∧
    ∀ name ∈ es.map Prod.fst, Names s name) (fun {ms ps} only named properties nodup => ?_)
    (fun {ms xs} only parts ne disjoint ih => ?_) hs hc
  · have hkeys : (ps.map fun p => (p.1, exampleOf p.2)).map Prod.fst = ps.map Prod.fst := List.map_map
    refine ⟨_, exampleOf_object only named properties, hkeys ▸ nodup, fun name hname => names_of_mem ?_⟩
    rwa [ownProperties_of_some properties, ← hkeys]
  · obtain ⟨hexample, hnodup⟩ := exampleOf_joined only parts ne ih disjoint
    refine ⟨_, hexample, hnodup, fun name hname => ?_⟩
    rw [List.map_flatMap, List.mem_flatMap] at hname
    obtain ⟨x, hx, hname⟩ := hname
    obtain ⟨es, hes, -, hnames⟩ := ih x hx
    rw [hes] at hname
    exact (hnames name hname).of_part parts hx

/-- The example of a regular schema conforms to it. -/
theorem conforms_exampleOf (s : Json) (h : Regular s) : Conforms s (exampleOf s) := by
  induction h with
  | @typed ms type only named simple =>
    rw [exampleOf_typed only (by decide)]
    refine conforms_of_only only (.inr fun t ht => ?_) (.inl (by decide)) (.inl (by decide)) (.inl (by decide))
      (.inl (by decide)) (.inl (by decide))
    obtain rfl : type = t := Json.str.inj (Option.some.inj (named.symm.trans ht))
    exact isOfType_typedExample named simple
  | @object ms ps only named properties nodup regular ih =>
    rw [exampleOf_object only named properties]
    refine conforms_of_only only (.inr fun t ht => ?_) (.inr fun p hp => ?_) (.inl (by decide)) (.inl (by decide))
      (.inl (by decide)) (.inl (by decide))
    · obtain rfl : "object".toList = t := Json.str.inj (Option.some.inj (named.symm.trans ht))
      rfl
    · rw [ownProperties_of_some properties] at hp
      refine ⟨exampleOf p.2, Keyed.get?_of_mem ?_ (List.mem_map_of_mem hp), ih p hp⟩
      rwa [List.map_map]
  | @array ms item only named items regular ih =>
    have hexample : exampleOf (.obj ms) = .arr [exampleOf item] := by
      rw [exampleOf_typed only (by decide), typedExample, kind_of_type named (by decide)]
      exact congrArg (fun x => Json.arr [x]) (itemExample_of_some items)
    rw [hexample]
    refine conforms_of_only only (.inr fun t ht => ?_) (.inl (by decide)) (.inr fun i hi y hy => ?_)
      (.inl (by decide)) (.inl (by decide)) (.inl (by decide))
    · obtain rfl : "array".toList = t := Json.str.inj (Option.some.inj (named.symm.trans ht))
      rfl
    · obtain rfl : item = i := Option.some.inj (items.symm.trans hi)
      obtain rfl : y = exampleOf item := List.mem_singleton.1 hy
      exact ih
  | @listed ms xs only listed ne =>
    obtain ⟨x, xs, rfl⟩ := List.exists_cons_of_ne_nil ne
    rw [exampleOf_listed only listed]
    refine conforms_of_only only (.inl (by decide)) (.inl (by decide)) (.inl (by decide)) (.inr fun ys hys => ?_)
      (.inl (by decide)) (.inl (by decide))
    obtain rfl : ys = x :: xs := eq_of_schemas? hys listed
    exact List.mem_cons_self
  | @varied ms keyword xs hkeyword only variants ne regular ih =>
    obtain ⟨x, xs, rfl⟩ := List.exists_cons_of_ne_nil ne
    rw [exampleOf_varied hkeyword only variants]
    have hne (k : Text) (hk : k ∉ ["oneOf".toList, "anyOf".toList]) : k ∉ [keyword] :=
      fun hmem => hk (List.mem_singleton.1 hmem ▸ hkeyword)
    refine conforms_of_only only (.inl (hne _ (by decide))) (.inl (hne _ (by decide))) (.inl (hne _ (by decide)))
      (.inl (hne _ (by decide))) (.inr fun k hk ys hys => ?_) (.inl (hne _ (by decide)))
    obtain rfl : k = keyword := List.mem_singleton.1 hk
    obtain rfl : ys = x :: xs := eq_of_schemas? hys variants
    exact ⟨x, List.mem_cons_self, ih x List.mem_cons_self⟩
  | @joined ms xs only parts ne regular composed disjoint ih =>
    have hobjects := fun x hx => exists_members_exampleOf (regular x hx) (composed x hx)
    obtain ⟨hexample, hnodup⟩ := exampleOf_joined only parts ne hobjects disjoint
    rw [hexample]
    refine conforms_of_only only (.inl (by decide)) (.inl (by decide)) (.inl (by decide)) (.inl (by decide))
      (.inl (by decide)) (.inr fun ys hys x hx => ?_)
    obtain rfl : ys = xs := eq_of_schemas? hys parts
    obtain ⟨es, hes, -⟩ := hobjects x hx
    have hpart : Conforms x (.obj es) := hes ▸ ih x hx
    refine hpart.extend (regular x hx) (composed x hx) fun k v hv => Keyed.get?_of_mem hnodup ?_
    refine List.mem_flatMap.2 ⟨x, hx, ?_⟩
    rw [hes]
    exact Keyed.mem_of_get? hv

theorem names_obj_iff {name : Text} : Names (.obj ms) name ↔
    name ∈ (ownProperties ms).map Prod.fst ∨ ∃ x ∈ partsOf ms, Names x name :=
  exists_partOf_iff

/-- A choice inside an object, joined with a date from a part within a part. -/
theorem conforms_exampleOf_nested :
    let choice : Json := .obj [("oneOf", .arr [.obj [("type", .str "array"), ("items", .obj [("enum", .arr [.int 1])])],
      .obj [("type", .str "null")]])]
    let left : Json := .obj [("type", .str "object"), ("properties", .obj [("id", choice)])]
    let date : Json := .obj [("type", .str "string"), ("format", .str "date")]
    let inner : Json := .obj [("required", .arr [.str "day"]), ("type", .str "object"),
      ("properties", .obj [("day", date)])]
    let right : Json := .obj [("allOf", .arr [inner])]
    let s : Json := .obj [("allOf", .arr [left, right])]
    Regular s ∧ exampleOf s = .obj [("id", .arr [.int 1]), ("day", .str "2024-01-01")] ∧ Conforms s (exampleOf s) := by
  intro choice left date inner right s
  have hchoice : Regular choice := by
    refine @Regular.varied _ "oneOf" _ (by decide) (by decide) rfl (List.cons_ne_nil _ _) ?_
    simp only [List.forall_mem_cons, List.not_mem_nil, false_imp_iff, implies_true, and_true]
    exact ⟨.array (by decide) rfl rfl (.listed (by decide) rfl (by decide)), .typed (by decide) rfl (by decide)⟩
  have hdate : Regular date := .typed (by decide) rfl (by decide)
  have hleft : Regular left := .object (by decide) rfl rfl (by decide) (List.forall_mem_singleton.2 hchoice)
  have hinner : Regular inner := .object (by decide) rfl rfl (by decide) (List.forall_mem_singleton.2 hdate)
  have hright : Regular right := .joined (by decide) rfl (List.cons_ne_nil _ _) (List.forall_mem_singleton.2 hinner)
    (List.forall_mem_singleton.2 ⟨_, .inl rfl⟩) (List.pairwise_singleton _ _)
  have hid {name : Text} (h : Names left name) : name = "id" := by
    rcases names_obj_iff.1 h with hname | ⟨x, hx, -⟩
    · exact List.mem_singleton.1 hname
    · cases hx
  have hday {name : Text} (h : Names right name) : name = "day" := by
    rcases names_obj_iff.1 h with hname | ⟨x, hx, h⟩
    · cases hname
    · obtain rfl : x = inner := List.mem_singleton.1 hx
      rcases names_obj_iff.1 h with hname | ⟨x, hx, -⟩
      · exact List.mem_singleton.1 hname
      · cases hx
  have hs : Regular s := by
    refine .joined (by decide) rfl (List.cons_ne_nil _ _) ?_ ?_ ?_
    · exact List.forall_mem_cons.2 ⟨hleft, List.forall_mem_singleton.2 hright⟩
    · exact List.forall_mem_cons.2 ⟨⟨_, .inl rfl⟩, List.forall_mem_singleton.2 ⟨_, .inr rfl⟩⟩
    · refine List.pairwise_pair.2 fun name hleft hright => ?_
      exact absurd ((hid hleft).symm.trans (hday hright)) (by decide)
  exact ⟨hs, by decide +kernel, conforms_exampleOf s hs⟩

end DocPages.Schema
