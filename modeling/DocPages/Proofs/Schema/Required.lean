import DocPages.Proofs.Json.Equality
import DocPages.Proofs.Schema.Composition

/-!
# Required names of a resolved schema

An object collects what it and its parts require, each entry once. A wrapper does not collect: it has the list of
the last of its parts and itself that says something under `required`, as it stands there. Variants that are
united add theirs in both cases. So entries get lost exactly where a wrapper has several lists, and the last of
them and the variants do not have what the others have.
-/

namespace DocPages.Schema

open Json

/-- The entries of `required`, none if the value is no object. -/
def requiredOf (s : Json) : List Json := (s.members?.map required).getD []

/-- The entries of the last of the parts and the schema that says something under `required`. -/
def lastRequired (ms : Members) (parts : List Members) : List Json :=
  (((ms :: parts.reverse).findSome? (Keyed.get? · "required")).bind items?).getD []

/-- What the variants under a keyword require, if they are united. -/
def offeredIn (keyword : Text) (ms : Members) : List Json := ((variants? keyword ms).getD []).flatMap required

/-- What the variants that are united require. -/
def offered (ms : Members) : List Json := offeredIn "oneOf" ms ++ offeredIn "anyOf" ms

/-! ## What is collected -/

theorem offeredIn_of_not_offers {keyword : Text} {ms : Members} (h : ¬ Offers keyword ms) :
    offeredIn keyword ms = [] := by
  rw [offeredIn, variants?_of_not_offers h]
  rfl

theorem required_withVariants (keyword : Text) (ms base : Members) : required (withVariants keyword ms base) =
    if Offers keyword ms then distinct (required base ++ offeredIn keyword ms) else required base := by
  rw [withVariants_eq]
  by_cases h : Offers keyword ms
  · rw [if_pos h, if_pos h, offeredIn, variants?_of_offers h]
    exact required_unite keyword base _
  · rw [if_neg h, if_neg h]

/-- Distinct entries stay in front when more are added, so the lists of both keywords may be added at once. -/
theorem required_view {ms : Members} (h : ∀ r ∈ required (joined ms) ++ offered ms, r.Proper) : required (view ms) =
    if Offers "oneOf" ms ∨ Offers "anyOf" ms then distinct (required (joined ms) ++ offered ms)
    else required (joined ms) := by
  rw [offered, ← List.append_assoc] at h
  have hinit : ∀ r ∈ required (joined ms) ++ offeredIn "oneOf" ms, r.Proper :=
    fun r hr => h r (List.mem_append_left _ hr)
  rw [view, required_withVariants, required_withVariants, offered, ← List.append_assoc]
  by_cases hone : Offers "oneOf" ms
  · by_cases hany : Offers "anyOf" ms
    · simp only [hone, hany, if_true, or_true, distinct_distinct_append hinit]
    · simp only [hone, hany, if_true, if_false, true_or, offeredIn_of_not_offers hany, List.append_nil]
  · simp only [hone, if_false, false_or, offeredIn_of_not_offers hone, List.append_nil]

theorem proper_of_mem_offered {ms : Members} (h : (Json.obj ms).Proper) : ∀ r ∈ offered ms, r.Proper := by
  have hkeyword (keyword : Text) : ∀ r ∈ offeredIn keyword ms, r.Proper := by
    intro r hr
    obtain ⟨v, hv, hr⟩ := List.mem_flatMap.1 hr
    cases hvs : variants? keyword ms with
    | none =>
      rw [hvs] at hv
      cases hv
    | some vs =>
      obtain ⟨xs, hxs, -, rfl⟩ := variants?_eq_some_iff.1 hvs
      rw [hvs] at hv
      exact proper_of_mem_required (proper_of_mem_objects h hxs hv) r hr
  intro r hr
  exact (List.mem_append.1 hr).elim (hkeyword "oneOf" r) (hkeyword "anyOf" r)

theorem required_wrap {ms : Members} {parts : List Members} (hms : (ms.map Prod.fst).Nodup)
    (hparts : ∀ part ∈ parts, (part.map Prod.fst).Nodup) : required (wrap ms parts) = lastRequired ms parts := by
  rw [required, get?_wrap hms hparts (by decide), lastRequired]

theorem offered_of_not_offers {ms : Members} (h : ¬ (Offers "oneOf" ms ∨ Offers "anyOf" ms)) : offered ms = [] := by
  obtain ⟨hone, hany⟩ := not_or.1 h
  rw [offered, offeredIn_of_not_offers hone, offeredIn_of_not_offers hany, List.append_nil]

section
variable {ms : Members} {xs : List Json} (h : (Json.obj ms).Proper) (hxs : schemas? "allOf" ms = some xs)
include h hxs

theorem proper_of_mem_union : ∀ r ∈ unionRequired ms (objects xs) ++ offered ms, r.Proper := by
  intro r hr
  rcases List.mem_append.1 hr with hr | hr
  · exact proper_of_mem_unionRequired h (fun _ hpart => proper_of_mem_objects h hxs hpart) r hr
  · exact proper_of_mem_offered h r hr

/-- What a resolved schema with parts requires. -/
theorem requiredOf_resolve : requiredOf (resolve (.obj ms)) =
    if IsObject ms (objects xs) then distinct (unionRequired ms (objects xs) ++ offered ms)
    else if Offers "oneOf" ms ∨ Offers "anyOf" ms then distinct (lastRequired ms (objects xs) ++ offered ms)
    else lastRequired ms (objects xs) := by
  have hjoined : joined ms = join ms (objects xs) := by rw [joined, hxs]
  have hproper : ∀ r ∈ required (joined ms) ++ offered ms, r.Proper := by
    intro r hr
    exact (List.mem_append.1 hr).elim (proper_of_mem_required (proper_joined h) r) (proper_of_mem_offered h r)
  have hview : requiredOf (resolve (.obj ms)) = required (view ms) := by
    rw [resolve_obj]
    rfl
  rw [hview, required_view hproper, hjoined]
  by_cases hobject : IsObject ms (objects xs)
  · have hunion : ∀ r ∈ unionRequired ms (objects xs), r.Proper :=
      fun r hr => proper_of_mem_union h hxs r (List.mem_append_left _ hr)
    rw [if_pos hobject, required_join hobject, distinct_distinct_append hunion]
    split
    · rfl
    · next hnone => rw [offered_of_not_offers hnone, List.append_nil]
  · rw [if_neg hobject, join, if_neg hobject, required_wrap (proper_obj_iff.1 h).1 (nodup_of_mem_objects h hxs)]

theorem proper_of_mem_lastRequired : ∀ r ∈ lastRequired ms (objects xs), r.Proper := by
  rw [← required_wrap (proper_obj_iff.1 h).1 (nodup_of_mem_objects h hxs)]
  exact proper_of_mem_required (proper_wrap h fun _ hpart => proper_of_mem_objects h hxs hpart)

end

/-- A resolved schema with parts requires all that it and its parts require, and no entry twice, if and only if it is
an object, or the last list and those of united variants have all entries between them and none is there twice. -/
theorem required_complete_iff (ms : Members) (xs : List Json) (h : (Json.obj ms).Proper)
    (hxs : schemas? "allOf" ms = some xs) :
    ((∀ r ∈ unionRequired ms (objects xs), Listed r (requiredOf (resolve (.obj ms)))) ∧
        NoneTwice (requiredOf (resolve (.obj ms)))) ↔
      (¬ IsObject ms (objects xs) →
        (∀ r ∈ unionRequired ms (objects xs), Listed r (lastRequired ms (objects xs) ++ offered ms)) ∧
          (¬ (Offers "oneOf" ms ∨ Offers "anyOf" ms) → NoneTwice (lastRequired ms (objects xs)))) := by
  have hunion := proper_of_mem_union h hxs
  rw [requiredOf_resolve h hxs]
  by_cases hobject : IsObject ms (objects xs)
  · rw [if_pos hobject]
    refine iff_of_true ⟨fun r hr => ?_, noneTwice_distinct hunion⟩ fun hnot => absurd hobject hnot
    exact listed_distinct_of_mem hunion (List.mem_append_left _ hr)
  · rw [if_neg hobject, imp_iff_right hobject]
    by_cases hoffers : Offers "oneOf" ms ∨ Offers "anyOf" ms
    · have hlast : ∀ r ∈ lastRequired ms (objects xs) ++ offered ms, r.Proper := by
        intro r hr
        exact (List.mem_append.1 hr).elim (proper_of_mem_lastRequired h hxs r) (proper_of_mem_offered h r)
      have hlisted : ∀ r ∈ unionRequired ms (objects xs),
          Listed r (distinct (lastRequired ms (objects xs) ++ offered ms)) ↔
            Listed r (lastRequired ms (objects xs) ++ offered ms) :=
        fun r hr => listed_distinct_iff hlast (hunion r (List.mem_append_left _ hr))
      rw [if_pos hoffers]
      exact and_congr (forall₂_congr hlisted) (iff_of_true (noneTwice_distinct hlast) fun hnot => absurd hoffers hnot)
    · rw [if_neg hoffers, offered_of_not_offers hoffers, List.append_nil, imp_iff_right hoffers]

/-- A wrapper whose part requires what its variants have, and which lists the same name once more. -/
theorem required_complete_iff_wrapper :
    let xs : List Json := [.obj [("required", .arr [.str "id"])]]
    let ms : Members := [("allOf", .arr xs), ("required", .arr [.str "name", .str "id"]),
      ("anyOf", .arr [.obj [("properties", .obj [("id", .obj []), ("name", .obj [])])]])]
    (Json.obj ms).Proper ∧ schemas? "allOf" ms = some xs ∧ ¬ IsObject ms (objects xs) ∧
      (∀ r ∈ unionRequired ms (objects xs), Listed r (requiredOf (resolve (.obj ms)))) ∧
        NoneTwice (requiredOf (resolve (.obj ms))) := by
  intro xs ms
  have hproper : (Json.obj ms).Proper := by simp [ms, xs, Proper, ProperMembers, ProperItems]
  have hlisted : ∀ r ∈ unionRequired ms (objects xs), Listed r (lastRequired ms (objects xs) ++ offered ms) := by
    decide +kernel
  have hoffers : Offers "oneOf" ms ∨ Offers "anyOf" ms := .inr (by decide +kernel)
  have hnot : ¬ IsObject ms (objects xs) := by decide +kernel
  exact ⟨hproper, rfl, hnot, (required_complete_iff ms xs hproper rfl).2
    fun _ => ⟨hlisted, fun hnone => absurd hoffers hnone⟩⟩

/-- Two parts require a name each, and the variants have both. The wrapper keeps the list of the second part only, so
the name that the first requires is lost. -/
theorem required_lost_in_wrapper :
    let xs : List Json := [.obj [("required", .arr [.str "id"])], .obj [("required", .arr [.str "name"])]]
    let ms : Members := [("allOf", .arr xs),
      ("oneOf", .arr [.obj [("properties", .obj [("id", .obj []), ("name", .obj [])])]])]
    (Json.obj ms).Proper ∧ schemas? "allOf" ms = some xs ∧ .str "id" ∈ unionRequired ms (objects xs) ∧
      ¬ Listed (.str "id") (requiredOf (resolve (.obj ms))) := by
  intro xs ms
  exact ⟨by simp [ms, xs, Proper, ProperMembers, ProperItems], rfl, by decide +kernel, by decide +kernel⟩

end DocPages.Schema
