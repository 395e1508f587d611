import DocPages.Proofs.Schema.Composition
import DocPages.Schema.Row

/-!
# Normal form

A resolved schema has no list of parts, and a list of variants only where these cannot be united. A schema of
this form is its own resolution, so resolving once more changes nothing. What decides is that a wrapper takes
over from its parts only variants that could not be united there either.
-/

namespace DocPages.Schema

open Json

def variantKeywords : List Text := ["oneOf", "anyOf"]

theorem notMem_objectKeys_of_variant {keyword : Text} (h : keyword ∈ variantKeywords) : keyword ∉ objectKeys := by
  have hall : ∀ keyword ∈ variantKeywords, keyword ∉ objectKeys := by decide
  exact hall keyword h

/-- No list of parts is left, and lists of variants only that are empty or hold one that is no object with
properties. -/
structure IsNormal (ms : Members) : Prop where
  parts : schemas? "allOf" ms = none
  variants : ∀ keyword ∈ variantKeywords, ∀ xs, schemas? keyword ms = some xs →
    xs = [] ∨ ∃ x ∈ xs, ∀ ns, resolve x = .obj ns → isMergeable ns = false

theorem not_unites_iff {xs : List Json} :
    ¬ Unites xs ↔ xs = [] ∨ ∃ x ∈ xs, ∀ ns, resolve x = .obj ns → isMergeable ns = false := by
  rw [Unites, not_and_or, not_ne_iff]
  simp only [not_forall, exists_prop, not_exists, not_and, Bool.not_eq_true]

theorem variants?_eq_none_iff {keyword : Text} {ms : Members} :
    variants? keyword ms = none ↔ ∀ xs, schemas? keyword ms = some xs → ¬ Unites xs := by
  unfold variants?
  cases schemas? keyword ms with
  | none => simp
  | some xs => simp

theorem variants?_congr {keyword : Text} {ms ns : Members} (h : Keyed.get? ms keyword = Keyed.get? ns keyword) :
    variants? keyword ms = variants? keyword ns := by
  rw [variants?, schemas?_congr h, variants?]

theorem variants?_of_none {keyword : Text} {ms : Members} (h : Keyed.get? ms keyword = none) :
    variants? keyword ms = none := by
  rw [variants?, schemas?_of_none h]

theorem isNormal_iff {ms : Members} :
    IsNormal ms ↔ schemas? "allOf" ms = none ∧ ∀ keyword ∈ variantKeywords, variants? keyword ms = none := by
  simp only [variants?_eq_none_iff, not_unites_iff]
  exact ⟨fun h => ⟨h.parts, h.variants⟩, fun h => ⟨h.1, h.2⟩⟩

/-- A schema in normal form is its own resolution. -/
theorem resolve_of_isNormal {ms : Members} (h : IsNormal ms) : resolve (.obj ms) = .obj ms := by
  obtain ⟨hparts, hvariants⟩ := isNormal_iff.1 h
  have hone := hvariants "oneOf" (by decide)
  have hany := hvariants "anyOf" (by decide)
  simp only [resolve_obj, view, joined, withVariants, hparts, hone, hany]

/-! ## Each step -/

theorem get?_withVariants {keyword k : Text} (hk : k ∉ objectKeys) (hne : k ≠ keyword) (ms joined : Members) :
    Keyed.get? (withVariants keyword ms joined) k = Keyed.get? joined k := by
  unfold withVariants
  split
  · rw [get?_unite _ hk, if_neg hne]
  · rfl

/-- Variants that can be united are gone once they are. -/
theorem variants?_withVariants {keyword : Text} (hkeyword : keyword ∈ variantKeywords) {ms joined : Members}
    (h : variants? keyword joined = variants? keyword ms) :
    variants? keyword (withVariants keyword ms joined) = none := by
  unfold withVariants
  split
  · exact variants?_of_none (by rw [get?_unite _ (notMem_objectKeys_of_variant hkeyword), if_pos rfl])
  · next hnone => rw [h, hnone]

theorem schemas?_allOf_joined (ms : Members) : schemas? "allOf" (joined ms) = none := by
  unfold joined
  cases hxs : schemas? "allOf" ms with
  | none => exact hxs
  | some xs =>
    refine schemas?_of_none ?_
    dsimp only
    by_cases h : IsObject ms (objects xs)
    · rw [get?_join h (by decide) (by decide), if_pos rfl]
    · rw [join, if_neg h, get?_wrap_allOf]

/-- A wrapper takes over variants of its parts, none of which can be united if the parts are in normal form. -/
theorem variants?_wrap {ms : Members} {parts : List Members} (hms : (ms.map Prod.fst).Nodup)
    (hparts : ∀ part ∈ parts, (part.map Prod.fst).Nodup) (hnormal : ∀ part ∈ parts, IsNormal part) {keyword : Text}
    (hkeyword : keyword ∈ variantKeywords) : variants? keyword (wrap ms parts) = variants? keyword ms := by
  have hne : keyword ≠ "allOf" := by
    have hall : ∀ keyword ∈ variantKeywords, keyword ≠ "allOf" := by decide
    exact hall keyword hkeyword
  have hget := get?_wrap hms hparts hne
  rw [List.findSome?_cons] at hget
  cases hown : Keyed.get? ms keyword with
  | some v =>
    rw [hown] at hget
    exact variants?_congr (hget.trans hown.symm)
  | none =>
    rw [hown] at hget
    rw [variants?_of_none hown]
    cases hpart : parts.reverse.findSome? (Keyed.get? · keyword) with
    | none => exact variants?_of_none (hget.trans hpart)
    | some v =>
      obtain ⟨part, hmem, hv⟩ := List.exists_of_findSome?_eq_some hpart
      have hsame : Keyed.get? (wrap ms parts) keyword = Keyed.get? part keyword := (hget.trans hpart).trans hv.symm
      rw [variants?_congr hsame]
      exact (isNormal_iff.1 (hnormal part (List.mem_reverse.1 hmem))).2 keyword hkeyword

theorem variants?_joined {ms : Members} (h : (Json.obj ms).Proper)
    (hnormal : ∀ xs, schemas? "allOf" ms = some xs → ∀ part ∈ objects xs, IsNormal part) {keyword : Text}
    (hkeyword : keyword ∈ variantKeywords) : variants? keyword (joined ms) = variants? keyword ms := by
  unfold joined
  cases hxs : schemas? "allOf" ms with
  | none => rfl
  | some xs =>
    dsimp only
    by_cases hobject : IsObject ms (objects xs)
    · have hdescription : ∀ keyword ∈ variantKeywords, keyword ≠ "description" ∧ keyword ≠ "allOf" := by decide
      obtain ⟨hdescription, hallOf⟩ := hdescription keyword hkeyword
      refine variants?_congr ?_
      rw [get?_join hobject (notMem_objectKeys_of_variant hkeyword) hdescription, if_neg hallOf]
    · rw [join, if_neg hobject]
      exact variants?_wrap (proper_obj_iff.1 h).1 (nodup_of_mem_objects h hxs) (hnormal xs hxs) hkeyword

/-! ## All steps -/

theorem isNormal_view {ms : Members} (h : (Json.obj ms).Proper)
    (hnormal : ∀ xs, schemas? "allOf" ms = some xs → ∀ part ∈ objects xs, IsNormal part) : IsNormal (view ms) := by
  have hkeep {k : Text} (hk : k ∉ objectKeys) (hone : k ≠ "oneOf") (hany : k ≠ "anyOf") :
      Keyed.get? (view ms) k = Keyed.get? (joined ms) k := by
    rw [view, get?_withVariants hk hany, get?_withVariants hk hone]
  have hany : variants? "anyOf" (withVariants "oneOf" ms (joined ms)) = variants? "anyOf" ms := by
    rw [variants?_congr (get?_withVariants (by decide) (by decide) ms (joined ms)),
      variants?_joined h hnormal (by decide)]
  have hone : variants? "oneOf" (view ms) = none := by
    rw [view, variants?_congr (get?_withVariants (by decide) (by decide) ms _)]
    exact variants?_withVariants (by decide) (variants?_joined h hnormal (by decide))
  refine isNormal_iff.2 ⟨?_, fun keyword hkeyword => ?_⟩
  · rw [schemas?_congr (hkeep (by decide) (by decide) (by decide)), schemas?_allOf_joined]
  · simp only [variantKeywords, List.mem_cons, List.not_mem_nil, or_false] at hkeyword
    rcases hkeyword with rfl | rfl
    · exact hone
    · exact variants?_withVariants (by decide) hany

theorem isNormal_of_resolve {s : Json} (h : s.Proper) {ms : Members} (hs : resolve s = .obj ms) : IsNormal ms := by
  induction s using composed_induction generalizing ms with
  | other j hj =>
    rw [resolve_of_members?_none hj] at hs
    rw [hs] at hj
    cases hj
  | obj ns ih =>
    obtain rfl := Json.obj.inj ((resolve_obj ns).symm.trans hs)
    refine isNormal_view h fun xs hxs part hpart => ?_
    obtain ⟨x, hx, hpart⟩ := mem_objects_iff.1 hpart
    exact ih "allOf" xs hxs x hx (proper_of_mem_schemas h hxs hx) hpart

theorem variants?_joined_of_proper {ms : Members} (h : (Json.obj ms).Proper) {keyword : Text}
    (hkeyword : keyword ∈ variantKeywords) : variants? keyword (joined ms) = variants? keyword ms := by
  refine variants?_joined h (fun xs hxs part hpart => ?_) hkeyword
  obtain ⟨x, hx, hpart⟩ := mem_objects_iff.1 hpart
  exact isNormal_of_resolve (proper_of_mem_schemas h hxs hx) hpart

/-- It makes no difference whether the variants of the schema are united with what has been joined so far, or those
that what has been joined so far has itself. -/
theorem view_eq_own {ms : Members} (h : (Json.obj ms).Proper) :
    view ms = withVariants "anyOf" (withVariants "oneOf" (joined ms) (joined ms))
      (withVariants "oneOf" (joined ms) (joined ms)) := by
  have hone : withVariants "oneOf" ms (joined ms) = withVariants "oneOf" (joined ms) (joined ms) := by
    rw [withVariants, ← variants?_joined_of_proper h (by decide), withVariants]
  have hany : variants? "anyOf" (withVariants "oneOf" (joined ms) (joined ms)) = variants? "anyOf" ms := by
    rw [variants?_congr (get?_withVariants (by decide) (by decide) _ _), variants?_joined_of_proper h (by decide)]
  rw [view, hone, withVariants, ← hany, ← withVariants]

theorem resolve_resolve {s : Json} (h : s.Proper) : resolve (resolve s) = resolve s := by
  cases hs : (resolve s).members? with
  | none => exact resolve_of_members?_none hs
  | some ms =>
    have hms := members?_eq_some_iff.1 hs
    rw [hms]
    exact resolve_of_isNormal (isNormal_of_resolve h hms)

/-- A resolved schema shows the rows of the schema itself. -/
theorem rows_resolve {s : Json} (h : s.Proper) (maxDepth depth : Int) :
    rows maxDepth depth (resolve s) = rows maxDepth depth s := by
  have hflagged : flaggedProperties (resolve s) = flaggedProperties s := by
    rw [flaggedProperties, resolve_resolve h, flaggedProperties]
  unfold rows
  cases (maxDepth + 1 - depth).toNat with
  | zero => rfl
  | succ levels => rw [rowsWithin, hflagged, rowsWithin]

/-- A resolved schema is in normal form, and resolving it once more gives the very same schema. -/
theorem resolve_normal (s : Json) (h : s.Proper) :
    (∀ ms, resolve s = .obj ms → IsNormal ms) ∧ resolve (resolve s) = resolve s :=
  ⟨fun _ hs => isNormal_of_resolve h hs, resolve_resolve h⟩

/-- A wrapper around a part whose variants cannot be united, with variants of its own that can. -/
theorem resolve_normal_wrapper :
    let part : Json := .obj [("oneOf", .arr [.obj [("type", .str "string")], .obj [("properties", .obj [])]])]
    let s : Json := .obj [("allOf", .arr [part]),
      ("anyOf", .arr [.obj [("properties", .obj [("id", .obj [])])]])]
    s.Proper ∧ (∀ ms, resolve s = .obj ms → IsNormal ms) ∧ resolve (resolve s) = resolve s := by
  intro part s
  have hproper : s.Proper := by simp [s, part, Proper, ProperMembers, ProperItems]
  exact ⟨hproper, resolve_normal s hproper⟩

end DocPages.Schema
