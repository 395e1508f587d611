import DocPages.Api.Component
import DocPages.Proofs.Schema.Template

/-!
# Cards over the templates

Whatever a payload holds, its card uses the tags of templates only. So the written form of a card, a panel or a
row is a well-formed fragment, and no text of the payload opens, closes or forges an element.
-/

namespace DocPages.Api

open Html

section
variable {V : Vocabulary} [CardTags V]

theorem over_card {cls : Text} {title body : Html} (h : cls ∈ cardKinds) (ht : Over V title)
    (hb : Over V body) : Over V (card cls title body) :=
  ⟨(write_foldable _).symm ▸ CardTags.card h, over_cardPart ht, over_cardPart hb⟩

/-! ## Security -/

theorem over_lock : Over V Icon.lock := by
  refine ⟨?_, ?_, ?_, over_empty⟩
  · simp only [List.nil_append, List.flatMap_cons, List.flatMap_nil, List.append_nil, write_fixed]
    exact CardTags.icon
  · show V.leaf _ _
    simp only [List.flatMap_cons, List.flatMap_nil, List.append_nil, write_fixed]
    exact CardTags.leaf .body
  · show V.leaf _ _
    simp only [List.flatMap_cons, List.flatMap_nil, List.append_nil, write_fixed]
    exact CardTags.leaf .shackle

theorem over_authLabel (t : Text) : Over V (authLabel t) :=
  over_cardPart (over_text t)

theorem over_code_plain (t : Text) : Over V (Schema.plainCode t) :=
  (Schema.over_plainCode t).mono rowParts_le

theorem over_schemeCard (scheme : Text) (scopes : Json) : Over V (schemeCard scheme scopes) := by
  have htitle : Over V (span "doc-api-card-icon" Icon.lock
      ++ span "doc-api-card-title" (.text "Authorization")
      ++ code "doc-api-scheme-name" (.text scheme)) :=
    ⟨⟨over_cardPart over_lock, over_cardPart (over_text _)⟩,
      over_cardPart (over_text _)⟩
  have hchip (s : Json) : Over V (code "doc-api-scope" (.text s.displayed)) :=
    over_cardPart (over_text _)
  have hchips (chips : List Json) : Over V (div "doc-api-scopes"
      (authLabel "Scopes" ++ concat (chips.map fun s => code "doc-api-scope" (.text s.displayed)))) :=
    over_cardPart ⟨over_authLabel _, over_map hchip _⟩
  exact over_card List.mem_cons_self htitle
    ⟨⟨over_cardPart ⟨over_authLabel _, over_code_plain _⟩,
      over_cardPart ⟨over_authLabel _, over_code_plain _⟩⟩, over_when (hchips _)⟩

theorem over_security (requirements : Json) : ∀ h ∈ security requirements, Over V h := by
  intro h hh
  unfold security at hh
  split at hh
  · cases hh
  · cases hh
    exact over_cardPart (over_map (fun s : Text × Json => over_schemeCard s.1 s.2) _)

/-! ## Parameters and request bodies -/

theorem over_paramCard (maxDepth : Int) (place : Location) (params : List Json) :
    Over V (paramCard maxDepth place params) := by
  have hrow (param : Json) : Over V (paramRow maxDepth param) := Schema.over_propertyRow ..
  have hplace : place.name ∈ ["path".toList, "query", "header", "cookie"] := by cases place <;> decide
  have hkind : "doc-api-params-" ++ place.name ∈ cardKinds :=
    List.mem_cons_of_mem _ (List.mem_cons_of_mem _ (List.mem_map_of_mem hplace))
  exact over_card hkind ⟨over_cardPart (over_text _), over_cardPart (over_text _)⟩ (over_cardPart (over_map hrow _))

theorem over_parameters (maxDepth : Int) (params : Json) :
    ∀ h ∈ parameters maxDepth params, Over V h := by
  intro h hh
  unfold parameters at hh
  split at hh
  · cases hh
  · cases hh
    refine over_cardPart (over_concat.2 fun c hc => ?_)
    unfold paramCards at hc
    obtain ⟨place, -, hplace⟩ := List.mem_filterMap.1 hc
    split at hplace
    · cases hplace
    · cases hplace
      exact over_paramCard maxDepth place _

end

theorem over_getD {V : Vocabulary} {o : Option Html} (h : ∀ c ∈ o, Over V c) : Over V (o.getD .empty) := by
  cases o with
  | none => exact over_empty
  | some c => exact h c rfl

theorem over_requestBody (maxDepth : Int) (body : Json) :
    Schema.GivesOver templates (requestBody maxDepth body) := by
  intro s h hh
  have hcontent := Schema.over_mediaTypes maxDepth (body.get "content") s
  rw [requestBody, StateT.run_bind] at hh
  cases hrun : (Schema.mediaTypes maxDepth (body.get "content")).run s with
  | mk content s' =>
    rw [hrun] at hcontent hh
    simp only [bind] at hh
    split at hh
    · cases hh
    · cases hh
      have hbadge := (Schema.over_requiredBadge (body.get "required").isTruthy).mono rowParts_le
      have hdescription : Over templates
          (div "doc-api-description" (.text (body.get "description").display)) :=
        over_cardPart (over_text _)
      have hkind : "doc-api-body-card".toList ∈ cardKinds := List.mem_cons_of_mem _ List.mem_cons_self
      exact over_cardPart (over_card hkind ⟨over_cardPart (over_text _), hbadge⟩
        ⟨over_when hdescription, over_getD hcontent⟩)

/-! ## Responses -/

/-- The class of a status code is one of six, whatever the code. -/
theorem statusClass_mem (code : Text) : statusClass code ∈ statusClasses := by
  unfold statusClass
  split
  · rename_i c code
    split
    · rename_i hc
      have hlow : 49 ≤ c.val.toNat := hc.1
      have hhigh : c.val.toNat ≤ 53 := hc.2
      have hval (d : Char) (h : c.val.toNat = d.val.toNat) : c = d := Char.ext (UInt32.toNat.inj h)
      have hcases : c.val.toNat = 49 ∨ c.val.toNat = 50 ∨ c.val.toNat = 51 ∨ c.val.toNat = 52 ∨
          c.val.toNat = 53 := by omega
      have hdigit : c ∈ ['1', '2', '3', '4', '5'] := by
        rcases hcases with h | h | h | h | h
        · simp [hval '1' h]
        · simp [hval '2' h]
        · simp [hval '3' h]
        · simp [hval '4' h]
        · simp [hval '5' h]
      have hall : (['1', '2', '3', '4', '5'].all fun d => d :: "xx".toList ∈ statusClasses) = true := by decide
      exact of_decide_eq_true (List.all_eq_true.1 hall c hdigit)
    · decide
  · decide

section
variable {V : Vocabulary} [CardTags V]

theorem over_headerRow (name : Text) (header : Json) : Over V (headerRow name header) := by
  have htype (t : Text) : Over V (span "doc-schema-property-type" (.text t)) :=
    (show Over rowParts _ from over_rowPart (over_text t)).mono rowParts_le
  have hdescription (t : Text) : Over V (span "doc-api-header-description" (.text t)) :=
    over_cardPart (over_text t)
  exact over_cardPart ⟨⟨over_cardPart (over_text _),
    over_when (htype _)⟩, over_when (hdescription _)⟩

theorem over_responseHeaders (headers : Json) : ∀ h ∈ responseHeaders headers, Over V h := by
  intro h hh
  unfold responseHeaders at hh
  split at hh
  · cases hh
    exact over_cardPart ⟨over_cardPart (over_text _),
      over_map (fun m : Text × Json => over_headerRow m.1 m.2) _⟩
  · cases hh

/-- The line with the status code of a response. -/
theorem over_statusLine (status : Text) (description : Json) :
    Over V (span ("doc-api-status-badge " ++ ("status-" ++ statusClass status)) (.text status)
      ++ span "doc-api-status-text" (.text (statusPhrase status))
      ++ when description.isTruthy (span "doc-api-response-description" (.text description.display))) :=
  ⟨⟨over_class (CardTags.statusBadge (statusClass_mem status)) (over_text _), over_cardPart (over_text _)⟩,
    over_when (over_cardPart (over_text _))⟩

end

theorem over_response (maxDepth : Int) (status : Text) (r : Json) (s : IdSupply) :
    Over templates ((response maxDepth status r).run s).1 := by
  have hstatus := statusClass_mem status
  have hheader := over_statusLine (V := templates) status (r.get "description")
  have hcontent := Schema.over_mediaTypes maxDepth (r.get "content") s
  rw [response, StateT.run_bind]
  cases hrun : (Schema.mediaTypes maxDepth (r.get "content")).run s with
  | mk content s' =>
    rw [hrun] at hcontent
    simp only [bind]
    split
    · exact over_class (.response hstatus) (over_cardPart hheader)
    · refine ⟨(write_foldable _).symm ▸ Opens.foldableResponse hstatus, over_cardPart hheader,
        over_cardPart ⟨over_getD hcontent, over_getD (over_responseHeaders _)⟩⟩

theorem over_responses (maxDepth : Int) (all : Json) :
    Schema.GivesOver templates (responses maxDepth all) := by
  intro s h hh
  unfold responses at hh
  split at hh
  · rename_i m ms
    cases hh
    exact over_cardPart ⟨over_cardPart (over_text _),
      over_concat.2 (Schema.over_mapM (fun (m : Text × Json) s => over_response maxDepth m.1 m.2 s) _ s)⟩
  · cases hh

/-! ## Whatever the payload -/

/-- The text of a card, a panel or nothing. -/
def written (o : Option Html) : Text := (o.getD .empty).write

theorem wellFormed_written {o : Option Html} (h : ∀ c ∈ o, Over templates c) :
    WellFormed templates (written o) := (over_getD h).fragment.wellFormed templates_plain

/-- Every card, panel and row is written as a well-formed fragment over the tags of templates, whatever value
is shown. -/
theorem wellFormed_of_any_value (maxDepth : Int) (v : Json) (ids : IdSupply) :
    WellFormed templates (written (security v)) ∧
      WellFormed templates (written (parameters maxDepth v)) ∧
      WellFormed templates (written ((requestBody maxDepth v).run ids).1) ∧
      WellFormed templates (written ((responses maxDepth v).run ids).1) ∧
      WellFormed templates (written ((Schema.block maxDepth v).run ids).1) ∧
      WellFormed templates (written ((Schema.mediaTypes maxDepth v).run ids).1) ∧
      ∀ (depth : Int) (name : Text) (required : Bool) (description : Json) (deprecated : Option Bool),
        WellFormed templates
          (Schema.propertyRow maxDepth depth name v required description deprecated).write := by
  refine ⟨wellFormed_written (over_security v), wellFormed_written (over_parameters maxDepth v),
    wellFormed_written (over_requestBody maxDepth v ids), wellFormed_written (over_responses maxDepth v ids),
    wellFormed_written (Schema.over_block maxDepth v ids),
    wellFormed_written (Schema.over_mediaTypes maxDepth v ids), ?_⟩
  intro depth name required description deprecated
  have hover := Schema.over_propertyRow maxDepth depth name v required description deprecated
  exact hover.fragment.wellFormed templates_plain

end DocPages.Api
