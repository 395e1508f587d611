import DocPages.Proofs.Api.Template
import DocPages.Proofs.Html.Attributes
import DocPages.Proofs.Html.Ids
import Mathlib.Data.List.Nodup

/-!
# The ids of cards

The ids that a card shows are those that were drawn for it. They do not stand in the order in which they were drawn,
since those of the panels of a body are drawn before the one of the tabs around them; but nothing is drawn without
being shown, and nothing else is shown, whatever the payload says. So the ids of several cards from one supply are
the numbers from one on, each once for each kind.
-/

namespace DocPages

/-! ## Drawing ids -/

namespace IdSupply

/-- The ids of a kind behind the number `m`, up to the number `n`. -/
def numbered (kind : Text) (m n : Nat) : List Text := (List.range' (m + 1) (n - m)).map (id kind)

@[simp] theorem numbered_self (kind : Text) (m : Nat) : numbered kind m m = [] := by simp [numbered]

theorem numbered_succ (kind : Text) (m : Nat) : numbered kind m (m + 1) = [id kind (m + 1)] := by
  simp [numbered]

theorem numbered_append (kind : Text) {l m n : Nat} (h : l ≤ m) (h' : m ≤ n) :
    numbered kind l m ++ numbered kind m n = numbered kind l n := by
  have hrange : List.range' (l + 1) (m - l) ++ List.range' (m + 1) (n - m) = List.range' (l + 1) (n - l) := by
    have happend := @List.range'_append (l + 1) (m - l) (n - m) 1
    rw [show l + 1 + 1 * (m - l) = m + 1 by omega, show m - l + (n - m) = n - l by omega] at happend
    exact happend
  rw [numbered, numbered, ← List.map_append, hrange]
  rfl

theorem nodup_numbered (kind : Text) (m n : Nat) : (numbered kind m n).Nodup :=
  List.Nodup.map (fun _ _ h => (id_inj.1 h).2) List.nodup_range'

theorem disjoint_numbered (m n m' n' : Nat) : (numbered "schema" m n).Disjoint (numbered "media" m' n') := by
  intro t ht ht'
  obtain ⟨i, -, rfl⟩ := List.mem_map.1 ht
  obtain ⟨j, -, hj⟩ := List.mem_map.1 ht'
  exact absurd (id_inj.1 hj).1 (by decide)

/-- From one state of the supply to another, the ids are those that are drawn, in some order. -/
structure Drawn (s s' : IdSupply) (ids : List Text) : Prop where
  schema : s.count "schema" ≤ s'.count "schema"
  media : s.count "media" ≤ s'.count "media"
  perm : ids.Perm (numbered "schema" (s.count "schema") (s'.count "schema") ++
    numbered "media" (s.count "media") (s'.count "media"))

namespace Drawn

variable {s s' s'' : IdSupply} {ids ids' : List Text}

theorem refl (s : IdSupply) : Drawn s s [] := ⟨Nat.le_refl _, Nat.le_refl _, by simp⟩

theorem trans (h : Drawn s s' ids) (h' : Drawn s' s'' ids') : Drawn s s'' (ids ++ ids') := by
  refine ⟨Nat.le_trans h.schema h'.schema, Nat.le_trans h.media h'.media, ?_⟩
  rw [← numbered_append "schema" h.schema h'.schema, ← numbered_append "media" h.media h'.media]
  refine (h.perm.append h'.perm).trans ?_
  simp only [List.append_assoc]
  refine List.Perm.append_left _ ?_
  rw [← List.append_assoc, ← List.append_assoc]
  exact List.perm_append_comm.append_right _

theorem reorder (h : Drawn s s' ids) (hperm : ids'.Perm ids) : Drawn s s' ids' :=
  ⟨h.schema, h.media, hperm.trans h.perm⟩

theorem nodup (h : Drawn s s' ids) : ids.Nodup := by
  exact h.perm.nodup_iff.2 (List.nodup_append'.2 ⟨nodup_numbered .., nodup_numbered .., disjoint_numbered ..⟩)

theorem drawSchema (s : IdSupply) : Drawn s (draw "schema" s).2 [id "schema" (s.count "schema" + 1)] := by
  have hself := count_draw_self "schema" s
  have hother : (draw "schema" s).2.count "media" = s.count "media" := count_draw_of_ne (by decide) s
  refine ⟨by omega, by omega, ?_⟩
  rw [hself, hother, numbered_succ, numbered_self, List.append_nil]

theorem drawMedia (s : IdSupply) : Drawn s (draw "media" s).2 [id "media" (s.count "media" + 1)] := by
  have hself := count_draw_self "media" s
  have hother : (draw "media" s).2.count "schema" = s.count "schema" := count_draw_of_ne (by decide) s
  refine ⟨by omega, by omega, ?_⟩
  rw [hself, hother, numbered_succ, numbered_self, List.nil_append]

end Drawn

end IdSupply

open Html IdSupply

/-! ## Showing what is drawn -/

/-- The ids of the text are those that are drawn from one state of the supply to another. -/
def Draws (s s' : IdSupply) (t : Text) : Prop := ∃ ids, Bears t ids ∧ Drawn s s' ids

/-- The same of several things one after the other. -/
inductive DrawsEach {α : Type} (write : α → Text) : IdSupply → IdSupply → List α → Prop where
  | nil (s : IdSupply) : DrawsEach write s s []
  | cons {s s' s'' : IdSupply} {a : α} {as : List α} (h : Draws s s' (write a)) (hs : DrawsEach write s' s'' as) :
      DrawsEach write s s'' (a :: as)

section
variable {s s' s'' : IdSupply} {t u : Text} {tag : Tag} {cls : Text} {h body title : Html}

theorem Draws.append (ht : Draws s s' t) (hu : Draws s' s'' u) : Draws s s'' (t ++ u) := by
  obtain ⟨ids, hbears, hdrawn⟩ := ht
  obtain ⟨ids', hbears', hdrawn'⟩ := hu
  exact ⟨ids ++ ids', hbears.append hbears', hdrawn.trans hdrawn'⟩

theorem Draws.nil (s : IdSupply) : Draws s s [] := ⟨[], .nil, .refl s⟩

theorem Draws.anonymous (hh : Over anonymous h) (s : IdSupply) : Draws s s h.write := ⟨[], hh.bears, .refl s⟩

theorem Draws.element {attrs : List Attr} (hattrs : Html.anonymous.opens tag (attrs.flatMap Attr.write))
    (hb : Draws s s' body.write) : Draws s s' (Html.element tag attrs body).write := by
  obtain ⟨ids, hbears, hdrawn⟩ := hb
  exact ⟨ids, (Anonymous.startTag hattrs tag).element hbears, hdrawn⟩

theorem Draws.ofClass (hattrs : Html.anonymous.opens tag (classed cls)) (hb : Draws s s' body.write) :
    Draws s s' (Html.element tag [.cls cls] body).write := .element ((write_class cls).symm ▸ hattrs) hb

theorem Draws.cardPart [hc : Listed cls (cardClasses tag)] (hb : Draws s s' body.write) :
    Draws s s' (Html.element tag [.cls cls] body).write := .ofClass (CardTags.classed hc.mem) hb

theorem Draws.card (hc : cls ∈ cardKinds) (ht : Over Html.anonymous title) (hb : Draws s s' body.write) :
    Draws s s' (Api.card cls title body).write := by
  have htitle : Over Html.anonymous (.element .summary [.cls "doc-api-card-header"] title) := over_cardPart ht
  have hbody : Draws s s' (div "doc-api-card-body" body).write := .cardPart hb
  exact .element ((write_foldable _).symm ▸ CardTags.card hc) ((Draws.anonymous htitle s).append hbody)

theorem DrawsEach.flatMap {α : Type} {write : α → Text} {as : List α} (h : DrawsEach write s s' as) :
    Draws s s' (as.flatMap write) := by
  induction h with
  | nil s => exact .nil s
  | cons h _ ih => exact h.append ih

/-- Texts that are read one by one are read alike one after the other. -/
theorem DrawsEach.readIds {α : Type} {write : α → Text} {as : List α} (h : DrawsEach write s s' as) :
    readIds (as.flatMap write) = as.flatMap fun a => Html.readIds (write a) := by
  induction h with
  | nil s => rfl
  | @cons s s' s'' a as h hs ih =>
    obtain ⟨ids, hbears, -⟩ := h
    obtain ⟨ids', hbears', -⟩ := hs.flatMap
    rw [List.flatMap_cons, List.flatMap_cons, (hbears.append hbears').reads, ← ih, hbears.reads, hbears'.reads]

theorem drawsEach_mapM {α β : Type} (write : β → Text) {step : α → StateM IdSupply β}
    (h : ∀ a s, Draws s ((step a).run s).2 (write ((step a).run s).1)) (as : List α) (s : IdSupply) :
    DrawsEach write s ((as.mapM step).run s).2 ((as.mapM step).run s).1 := by
  induction as generalizing s with
  | nil => exact .nil s
  | cons a as ih =>
    rw [List.mapM_cons, StateT.run_bind]
    exact .cons (h a s) (ih _)

/-! ## Tab strips -/

theorem drawsEach_tabPanels {panels : List Html} (hs : DrawsEach Html.write s s' panels) (i : Nat) :
    DrawsEach Html.write s s' ((panels.zipIdx i).map fun p => tabPanel p.1 p.2) := by
  induction hs generalizing i with
  | nil s => exact .nil s
  | @cons s s' s'' panel panels hpanel _ ih =>
    have hattrs : Html.anonymous.opens .div ([active "doc-tab-panel" i, .flag "data-tab-panel",
        .fixed "data-tab-index" (Text.ofNat i)].flatMap Attr.write) := by
      simp only [active, List.flatMap_cons, List.flatMap_nil, List.append_nil, write_cls, write_flag, write_fixed]
      exact CardTags.tabPanel (Schema.active_mem _ i) i
    exact .cons (.element hattrs hpanel) (ih (i + 1))

/-- A tab strip shows its id in front of those of its panels. -/
theorem bears_tabs {id : Text} {ids : List Text} (hcls : '"' ∉ cls) (hid : '"' ∉ id) {titles : List Text}
    {panels : List Html} (hpanels : Bears ((panels.zipIdx.map fun p => tabPanel p.1 p.2).flatMap Html.write) ids) :
    Bears (tabs cls id titles panels).write (id :: ids) := by
  have hplain : ∀ a ∈ [Attr.cls cls, .flag "data-tabs", .fixed "id" id], Plain a := by
    intro a ha
    simp only [List.mem_cons, List.not_mem_nil, or_false] at ha
    rcases ha with rfl | rfl | rfl
    · exact ⟨by decide, hcls⟩
    · exact (show PlainName "data-tabs" by decide)
    · exact ⟨by decide, hid⟩
  have htag : Bears (startTag .div ([Attr.cls cls, .flag "data-tabs", .fixed "id" id].flatMap Attr.write)) [id] :=
    .of_scan (scan_startTag hplain .div)
  have hbuttons : Over Html.anonymous (div "doc-tabs-header" (concat (titles.zipIdx.map fun p => tabButton p.1 p.2))) :=
    over_cardPart (over_map (fun p : Text × Nat => Schema.over_tabButton p.1 p.2) _)
  have hcontent : Bears (div "doc-tabs-content" (concat (panels.zipIdx.map fun p => tabPanel p.1 p.2))).write ids := by
    have hopens : Html.anonymous.opens .div (classed "doc-tabs-content") := CardTags.classed (by decide)
    rw [← write_class] at hopens
    exact (Anonymous.startTag hopens .div).element (write_concat _ ▸ hpanels)
  exact htag.element (hbuttons.bears.append hcontent)

end

/-! ## Schemas and media types -/

namespace Schema

theorem draws_block (maxDepth : Int) (schema : Json) (s : IdSupply) :
    Draws s ((block maxDepth schema).run s).2 (Api.written ((block maxDepth schema).run s).1) := by
  unfold block
  split
  · exact .nil s
  · have hproperties : Draws s s (propertiesPanel maxDepth schema).write :=
      .anonymous (over_propertiesPanel maxDepth schema) s
    have hexample : Draws s s (jsonBlock (exampleOf schema)).write := .anonymous (over_jsonBlock _) s
    have hpanels := drawsEach_tabPanels (.cons hproperties (.cons hexample (.nil s))) 0
    obtain ⟨ids, hbears, hdrawn⟩ := hpanels.flatMap
    have hid : '"' ∉ IdSupply.id "schema" (s.count "schema" + 1) := quote_notMem_id (by decide) _
    refine ⟨_, bears_tabs (by decide) hid hbears, (hdrawn.trans (.drawSchema s)).reorder ?_⟩
    exact (List.perm_append_singleton _ ids).symm

theorem draws_mediaPanel (maxDepth : Int) (media : Json) (s : IdSupply) :
    Draws s ((mediaPanel maxDepth media).run s).2 ((mediaPanel maxDepth media).run s).1.write := by
  have hblock := draws_block maxDepth (media.get "schema") s
  rw [mediaPanel, StateT.run_bind]
  cases hrun : (block maxDepth (media.get "schema")).run s with
  | mk o s' =>
    rw [hrun] at hblock
    cases o with
    | none =>
      have hnote : Over Html.anonymous (div "doc-schema-empty" (.text "No schema.")) := over_cardPart (over_text _)
      exact hblock.append (.anonymous hnote s')
    | some h => exact hblock

theorem draws_mediaTypes (maxDepth : Int) (content : Json) (s : IdSupply) :
    Draws s ((mediaTypes maxDepth content).run s).2 (Api.written ((mediaTypes maxDepth content).run s).1) := by
  unfold mediaTypes
  split
  · rename_i m ms
    rw [StateT.run_bind]
    have hpanels := drawsEach_mapM Html.write
      (fun (m : Text × Json) s => draws_mediaPanel maxDepth m.2 s) (m :: ms) s
    cases hrun : ((m :: ms).mapM fun m : Text × Json => mediaPanel maxDepth m.2).run s with
    | mk panels s' =>
      rw [hrun] at hpanels
      simp only [bind]
      split
      · have hname : Over Html.anonymous (div "doc-media-type" (plainCode m.1)) :=
          over_cardPart ((over_plainCode m.1).mono rowParts_le)
        have hpanel := hpanels.flatMap
        rw [List.flatMap_singleton] at hpanel
        exact (Draws.anonymous hname s).append hpanel
      · obtain ⟨ids, hbears, hdrawn⟩ := (drawsEach_tabPanels hpanels 0).flatMap
        have hid : '"' ∉ IdSupply.id "media" (s'.count "media" + 1) := quote_notMem_id (by decide) _
        -- The id of the strip is drawn last and stands first.
        refine ⟨_, bears_tabs (by decide) hid hbears, (hdrawn.trans (.drawMedia s')).reorder ?_⟩
        exact (List.perm_append_singleton _ ids).symm
  · exact .nil s

end Schema

/-! ## Cards -/

namespace Api

theorem draws_requestBody (maxDepth : Int) (body : Json) (s : IdSupply) :
    Draws s ((requestBody maxDepth body).run s).2 (written ((requestBody maxDepth body).run s).1) := by
  have hcontent := Schema.draws_mediaTypes maxDepth (body.get "content") s
  rw [requestBody, StateT.run_bind]
  cases hrun : (Schema.mediaTypes maxDepth (body.get "content")).run s with
  | mk content s' =>
    rw [hrun] at hcontent
    simp only [bind]
    split
    · rename_i hnothing
      obtain rfl : content = none := by
        cases content with
        | none => rfl
        | some h => simp at hnothing
      exact hcontent
    · have htitle : Over Html.anonymous (span "doc-api-card-title" (.text "Body") ++
          Schema.badge (if (body.get "required").isTruthy then "required" else "optional")) :=
        ⟨over_cardPart (over_text _), (Schema.over_requiredBadge _).mono rowParts_le⟩
      have hdescription : Over Html.anonymous (when (body.get "description").isTruthy
          (div "doc-api-description" (.text (body.get "description").display))) :=
        over_when (over_cardPart (over_text _))
      have hkind : "doc-api-body-card".toList ∈ cardKinds := List.mem_cons_of_mem _ List.mem_cons_self
      exact .cardPart (.card hkind htitle ((Draws.anonymous hdescription s).append hcontent))

theorem draws_response (maxDepth : Int) (status : Text) (r : Json) (s : IdSupply) :
    Draws s ((response maxDepth status r).run s).2 ((response maxDepth status r).run s).1.write := by
  have hstatus := statusClass_mem status
  have hline := over_statusLine (V := Html.anonymous) status (r.get "description")
  have hcontent := Schema.draws_mediaTypes maxDepth (r.get "content") s
  rw [response, StateT.run_bind]
  cases hrun : (Schema.mediaTypes maxDepth (r.get "content")).run s with
  | mk content s' =>
    rw [hrun] at hcontent
    simp only [bind]
    split
    · have hcard : Over Html.anonymous (div ("doc-api-response " ++ ("status-" ++ statusClass status))
          (div "doc-api-response-header" _)) := over_class (CardTags.response hstatus) (over_cardPart hline)
      exact hcontent.append (.anonymous hcard s')
    · have htitle : Over Html.anonymous (.element .summary [.cls "doc-api-response-header"] _) := over_cardPart hline
      have hheaders : Over Html.anonymous ((responseHeaders (r.get "headers")).getD .empty) :=
        over_getD (over_responseHeaders _)
      exact .element ((write_foldable _).symm ▸ CardTags.foldableResponse hstatus)
        ((Draws.anonymous htitle s).append (.cardPart (hcontent.append (.anonymous hheaders s'))))

theorem draws_responses (maxDepth : Int) (all : Json) (s : IdSupply) :
    Draws s ((responses maxDepth all).run s).2 (written ((responses maxDepth all).run s).1) := by
  unfold responses
  split
  · rename_i m ms
    have htitle : Over Html.anonymous (div "doc-api-section-title" (.text "Responses")) := over_cardPart (over_text _)
    have hitems := drawsEach_mapM Html.write
      (fun (m : Text × Json) s => draws_response maxDepth m.1 m.2 s) (Keyed.sorted (m :: ms)) s
    exact .cardPart ((Draws.anonymous htitle s).append (write_concat _ ▸ hitems.flatMap))
  · exact .nil s

/-- A card shows the ids that are drawn for it. -/
theorem draws_render (c : Component) (maxDepth : Int) (v : Json) (s : IdSupply) :
    Draws s ((c.render maxDepth v).run s).2 (written ((c.render maxDepth v).run s).1) := by
  cases c with
  | security => exact .anonymous (over_getD (over_security v)) s
  | parameters => exact .anonymous (over_getD (over_parameters maxDepth v)) s
  | request => exact draws_requestBody maxDepth v s
  | responses => exact draws_responses maxDepth v s

/-- A payload that is shown as a card, down to a greatest depth. -/
structure Call where
  component : Component
  maxDepth : Int
  payload : Json

def Call.card (call : Call) : StateM IdSupply (Option Html) := call.component.render call.maxDepth call.payload

/-- The ids in the cards of several payloads from one supply are the numbers from one on for either kind, each once,
up to as many as have been drawn. They are the same in the cards one by one and one after the other. -/
theorem ids_of_calls (calls : List Call) :
    let run := (calls.mapM Call.card).run IdSupply.fresh
    let ids := run.1.flatMap fun card => readIds (written card)
    ids.Perm ((List.range' 1 (run.2.count "schema")).map (IdSupply.id "schema") ++
        (List.range' 1 (run.2.count "media")).map (IdSupply.id "media")) ∧
      ids.Nodup ∧ readIds (run.1.flatMap written) = ids := by
  have hcards := drawsEach_mapM written
    (fun (call : Call) s => draws_render call.component call.maxDepth call.payload s) calls IdSupply.fresh
  obtain ⟨ids, hbears, hdrawn⟩ := hcards.flatMap
  have hids := hcards.readIds.symm.trans hbears.reads
  refine ⟨?_, ?_, hcards.readIds⟩
  · rw [← hids] at hdrawn
    exact hdrawn.perm
  · rw [← hids] at hdrawn
    exact hdrawn.nodup

end Api

end DocPages
