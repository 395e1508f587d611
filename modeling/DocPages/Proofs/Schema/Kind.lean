import DocPages.Proofs.Json.Equality
import DocPages.Proofs.Schema.Composition
import DocPages.Schema.Example
import DocPages.Schema.Label

/-!
# Arrays in rows and examples

An example is an array where the type is `array`, where that is the first of several types, and where no type is
named but items are. The rows below an array are shown in the first case only. So the two agree on an array of
objects exactly if its type is given as the one word.
-/

namespace DocPages.Schema

open Json

variable {ms is : Members}

/-- Several types are named, and `array` is the first of them that is not `null`. -/
def ListsArray (ms : Members) : Prop :=
  ∃ ts, Keyed.get? ms "type" = some (.arr ts) ∧ ts.find? (fun t => !isNullName t) = some (.str "array")

/-- No type is named, but there are items and no properties. -/
def ImpliesArray (ms : Members) : Prop :=
  (namedType ms).isTruthy = false ∧ properties? ms = none ∧ ms.has "items" = true

theorem ofName_eq_array_iff {t : Text} : Kind.ofName t = .array ↔ t = "array" := by
  unfold Kind.ofName
  repeat' split
  all_goals simp_all

theorem ofJson_eq_array_iff {j : Json} : Kind.ofJson j = .array ↔ j = .str "array" := by
  cases j <;> simp [Kind.ofJson, ofName_eq_array_iff]

theorem hasType_iff {type : Text} : hasType type ms = true ↔ Keyed.get? ms "type" = some (.str type) := by
  unfold hasType
  split <;> simp_all

theorem namedType_eq_array_iff : namedType ms = .str "array" ↔ hasType "array" ms = true ∨ ListsArray ms := by
  rw [hasType_iff, ListsArray, namedType]
  cases h : Keyed.get? ms "type" with
  | none => simp
  | some v =>
    cases v with
    | arr ts => cases hf : ts.find? (fun t => !isNullName t) <;> simp [hf]
    | _ => simp

/-- The schemas whose examples are arrays. -/
theorem kind_eq_array_iff : kind ms = .array ↔ hasType "array" ms = true ∨ ListsArray ms ∨ ImpliesArray ms := by
  rw [← or_assoc, ← namedType_eq_array_iff, ImpliesArray]
  unfold kind
  by_cases htruthy : (namedType ms).isTruthy = true
  · rw [if_pos htruthy, ofJson_eq_array_iff]
    simp [htruthy]
  · have hname : namedType ms ≠ .str "array" := by
      rintro h
      rw [h] at htruthy
      exact htruthy (by decide)
    rw [if_neg htruthy, or_iff_right hname]
    cases properties? ms <;> cases ms.has "items" <;> simp [htruthy]

/-- A schema named by the one word neither lists its types nor leaves them open. -/
theorem not_lists_of_hasType (h : hasType "array" ms = true) : ¬ (ListsArray ms ∨ ImpliesArray ms) := by
  have hnamed : namedType ms = .str "array" := namedType_eq_array_iff.2 (.inl h)
  rintro (⟨ts, hts, -⟩ | ⟨hfalsy, -⟩)
  · rw [hasType_iff.1 h] at hts
    cases hts
  · rw [hnamed] at hfalsy
    exact absurd hfalsy (by decide)

/-- A schema without properties of its own has those of its items below it, if its type is the one word. -/
theorem child?_of_items (hown : Keyed.get? ms "properties" = none) (hitems : items ms = .obj is)
    (hprops : ownProperties is ≠ []) :
    child? (.obj ms) = if hasType "array" ms then some (.obj is) else none := by
  have hnone : properties? ms = none := by rw [properties?, hown, Option.bind_none]
  have hsome : (properties? is).any (!·.isEmpty) = true := by
    rw [ownProperties] at hprops
    cases hps : properties? is with
    | none => simp [hps] at hprops
    | some ps => simpa [hps] using hprops
  simp only [child?, hnone, hitems, Option.any_none, hsome, if_true, Bool.false_eq_true, if_false]

/-- The rows below an array of objects are those of its items if and only if its type is the one word. For the
other schemas that examples take for arrays, by several types or by none, there are no rows. -/
theorem child?_eq_items_iff (ms is : Members) (hown : Keyed.get? ms "properties" = none) (hkind : kind ms = .array)
    (hitems : items ms = .obj is) (hprops : ownProperties is ≠ []) :
    (child? (.obj ms) = some (.obj is) ↔ hasType "array" ms = true) ∧
      (child? (.obj ms) = none ↔ ListsArray ms ∨ ImpliesArray ms) := by
  rw [child?_of_items hown hitems hprops]
  by_cases htype : hasType "array" ms = true
  · rw [if_pos htype]
    exact ⟨iff_of_true rfl htype, iff_of_false (by simp) (not_lists_of_hasType htype)⟩
  · rw [if_neg htype]
    exact ⟨iff_of_false (by simp) htype, iff_of_true rfl ((kind_eq_array_iff.1 hkind).resolve_left htype)⟩

/-- An array whose items get their properties from a part. -/
theorem child?_eq_items_iff_joined :
    let part : Json := .obj [("properties", .obj [("id", .obj [("type", .str "string")])])]
    let ms : Members := [("type", .str "array"), ("items", .obj [("allOf", .arr [part])])]
    let is : Members := [("type", .str "object"), ("properties", .obj [("id", .obj [("type", .str "string")])])]
    Keyed.get? ms "properties" = none ∧ kind ms = .array ∧ items ms = .obj is ∧ ownProperties is ≠ [] ∧
      child? (.obj ms) = some (.obj is) := by
  intro part ms is
  have hown : Keyed.get? ms "properties" = none := by decide
  have hkind : kind ms = .array := by decide
  have hitems : items ms = .obj is := by decide +kernel
  have hprops : ownProperties is ≠ [] := List.cons_ne_nil _ _
  exact ⟨hown, hkind, hitems, hprops, (child?_eq_items_iff ms is hown hkind hitems hprops).1.2 (by decide)⟩

/-- An array of objects that may be `null`: its example is a list of objects, but no rows are shown below it. -/
theorem nullable_array_without_rows :
    let is : Members := [("properties", .obj [("id", .obj [("type", .str "string")])])]
    let ms : Members := [("type", .arr [.str "array", .str "null"]), ("items", .obj is)]
    resolve (.obj ms) = .obj ms ∧
      (∀ k ∈ ["properties", "enum", "example", "default", "allOf", "oneOf", "anyOf"], Keyed.get? ms k.toList = none) ∧
      kind ms = .array ∧ items ms = .obj is ∧ ownProperties is ≠ [] ∧
      exampleOf (.obj ms) = .arr [.obj [("id", .str "string")]] ∧ child? (.obj ms) = none := by
  decide +kernel

end DocPages.Schema
