import DocPages.Proofs.Html.Template
import DocPages.Schema.Panel

/-!
# Schemas over the templates

Rows and panels use the tags of templates only. What a row holds besides the rows of its children uses fewer:
none of those tags opens a row.
-/

namespace DocPages

namespace Schema

open Html

theorem over_badge (kind : Text) [Listed ("doc-badge doc-badge-" ++ kind) (rowClasses .span)] :
    Over rowParts (badge kind) := over_rowPart (over_text kind)

/-- The badge that says whether a value is required. -/
theorem over_requiredBadge (required : Bool) :
    Over rowParts (badge (if required then "required" else "optional")) := by
  cases required with
  | false => exact over_badge "optional"
  | true => exact over_badge "required"

theorem over_rowHeader (head : RowHead) (schema : Json) : Over rowParts (rowHeader head schema) := by
  have hname : Over rowParts (code "doc-schema-property-name" (.text head.name)) :=
    over_rowPart (over_text _)
  have htype : Over rowParts (span "doc-schema-property-type" (.text (typeLabel schema))) :=
    over_rowPart (over_text _)
  exact over_rowPart ⟨⟨⟨hname, over_when htype⟩, over_requiredBadge head.required⟩,
    over_when (over_badge "deprecated")⟩

theorem over_plainCode (t : Text) : Over rowParts (plainCode t) := ⟨.bare (by decide), over_text t⟩

theorem over_plainSpan (t : Text) : Over rowParts (plainSpan t) := ⟨.bare (by decide), over_text t⟩

theorem over_rowBody (head : RowHead) (schema : Json) : Over rowParts (rowBody head schema) := by
  have hdescription : Over rowParts
      (div "doc-schema-property-description" (.text head.description.display)) :=
    over_rowPart (over_text _)
  have hlimit (c : Text) : Over rowParts (span "doc-constraint" (.text c)) := over_rowPart (over_text c)
  have hlimits : Over rowParts (div "doc-schema-property-constraints"
      (concat ((constraints schema).map fun c => span "doc-constraint" (.text c)))) :=
    over_rowPart (over_map hlimit _)
  have hvalue (v : Json) : Over rowParts (code "doc-enum-value" (.text (valueText v))) :=
    over_rowPart (over_text _)
  have hvalues : Over rowParts (div "doc-schema-property-enum"
      (plainSpan "Allowed values:" ++ .text " "
        ++ concat ((listed schema).map fun v => code "doc-enum-value" (.text (valueText v))))) :=
    over_rowPart ⟨⟨over_plainSpan _, over_text _⟩, over_map hvalue _⟩
  refine ⟨⟨⟨over_when hdescription, over_when hlimits⟩, over_when hvalues⟩, ?_⟩
  split
  · exact over_rowPart ⟨⟨over_plainSpan _, over_text _⟩, over_plainCode _⟩
  · exact over_empty

theorem write_rowAttrs (nested : Bool) (depth : Int) :
    [Attr.cls (if nested then "doc-schema-property has-children" else "doc-schema-property"),
      .fixed "data-depth" (Text.ofInt depth)].flatMap Attr.write =
      classed (rowClass nested) ++ valued "data-depth" (Text.ofInt depth) := by
  simp only [List.flatMap_cons, List.flatMap_nil, List.append_nil, write_cls, write_fixed, rowClass]

section
variable {V : Vocabulary} [CardTags V]

theorem over_row (head : RowHead) (schema : Json) {children : List Html}
    (h : ∀ c ∈ children, Over V c) : Over V (row head schema children) := by
  refine ⟨?_, ⟨(over_rowHeader head schema).mono rowParts_le, (over_rowBody head schema).mono rowParts_le⟩,
    over_when ⟨?_, ⟨CardTags.bare (by decide), over_text _⟩, over_cardPart (over_concat.2 h)⟩⟩
  · rw [write_rowAttrs]
    exact CardTags.row _ head.depth
  · rw [write_foldable]
    exact CardTags.children

theorem over_rowsWithin (levels : Nat) (depth : Int) (schema : Json) :
    ∀ h ∈ rowsWithin levels depth schema, Over V h := by
  induction levels generalizing depth schema with
  | zero => simp [rowsWithin]
  | succ levels ih =>
    intro h hh
    rw [rowsWithin] at hh
    obtain ⟨⟨name, p, required⟩, -, rfl⟩ := List.mem_map.1 hh
    refine over_row _ _ ?_
    split
    · exact ih _ _
    · simp

theorem over_rows (maxDepth depth : Int) (schema : Json) : ∀ h ∈ rows maxDepth depth schema, Over V h :=
  over_rowsWithin _ depth schema

theorem over_propertyRow (maxDepth depth : Int) (name : Text) (schema : Json) (required : Bool)
    (description : Json) (deprecated : Option Bool) :
    Over V (propertyRow maxDepth depth name schema required description deprecated) := by
  refine over_row _ _ ?_
  split
  · exact over_rows maxDepth (depth + 1) _
  · simp

/-! ## Panels -/

theorem over_jsonBlock (j : Json) : Over V (jsonBlock j) :=
  ⟨CardTags.bare (by decide), over_cardPart (over_text _)⟩

theorem over_propertiesPanel (maxDepth : Int) (schema : Json) :
    Over V (propertiesPanel maxDepth schema) := by
  have hrows (rs : List Html) (h : ∀ r ∈ rs, Over V r) :
      Over V (div "doc-schema-properties" (concat rs)) :=
    over_cardPart (over_concat.2 h)
  unfold propertiesPanel
  simp only
  split
  · split
    · exact ⟨over_cardPart (over_text _), hrows _ (over_rows maxDepth 0 _)⟩
    · exact over_jsonBlock schema
  · exact hrows _ (over_rows maxDepth 0 _)

theorem active_mem (cls : Text) (i : Nat) :
    (if i = 0 then cls ++ " active" else cls) ∈ tabClasses cls := by
  split <;> simp only [tabClasses, List.mem_cons, true_or, or_true]

theorem over_tabButton (title : Text) (i : Nat) : Over V (tabButton title i) := by
  refine ⟨?_, over_text _⟩
  simp only [active, List.flatMap_cons, List.flatMap_nil, List.append_nil, write_cls, write_flag, write_fixed]
  exact CardTags.tabButton (active_mem _ i) i

theorem over_tabPanel {panel : Html} (h : Over V panel) (i : Nat) :
    Over V (tabPanel panel i) := by
  refine ⟨?_, h⟩
  simp only [active, List.flatMap_cons, List.flatMap_nil, List.append_nil, write_cls, write_flag, write_fixed]
  exact CardTags.tabPanel (active_mem _ i) i

end

theorem over_tabs {cls id : Text}
    (h : Opens .div (classed cls ++ (flagged "data-tabs" ++ valued "id" id))) (titles : List Text)
    {panels : List Html} (hpanels : ∀ p ∈ panels, Over templates p) :
    Over templates (tabs cls id titles panels) := by
  have hbuttons : Over templates (concat (titles.zipIdx.map fun p => tabButton p.1 p.2)) :=
    over_map (fun p : Text × Nat => over_tabButton p.1 p.2) _
  have hpanels : Over templates (concat (panels.zipIdx.map fun p => tabPanel p.1 p.2)) := by
    refine over_concat.2 fun p hp => ?_
    obtain ⟨⟨panel, i⟩, hmem, rfl⟩ := List.mem_map.1 hp
    exact over_tabPanel (hpanels panel (List.fst_mem_of_mem_zipIdx hmem)) i
  refine ⟨?_, over_cardPart hbuttons, over_cardPart hpanels⟩
  simp only [List.flatMap_cons, List.flatMap_nil, List.append_nil, write_cls, write_flag, write_fixed]
  exact h

/-- What a step gives, if it gives something. -/
def GivesOver (V : Vocabulary) (step : StateM IdSupply (Option Html)) : Prop :=
  ∀ s, ∀ h ∈ (step.run s).1, Over V h

theorem over_block (maxDepth : Int) (schema : Json) : GivesOver templates (block maxDepth schema) := by
  intro s h hh
  unfold block at hh
  split at hh
  · cases hh
  · cases hh
    refine over_tabs (.schemaTabs _) _ fun p hp => ?_
    rcases List.mem_cons.1 hp with rfl | hp
    · exact over_propertiesPanel maxDepth schema
    · obtain rfl := List.mem_singleton.1 hp
      exact over_jsonBlock _

theorem over_mediaPanel (maxDepth : Int) (media : Json) (s : IdSupply) :
    Over templates ((mediaPanel maxDepth media).run s).1 := by
  rw [mediaPanel, StateT.run_bind]
  have hblock := over_block maxDepth (media.get "schema") s
  cases hrun : (block maxDepth (media.get "schema")).run s with
  | mk o s' =>
    rw [hrun] at hblock
    cases o with
    | none => exact over_cardPart (over_text _)
    | some h => exact hblock h rfl

theorem over_mapM {α : Type} {step : α → StateM IdSupply Html}
    (h : ∀ a s, Over V ((step a).run s).1) (as : List α) (s : IdSupply) :
    ∀ p ∈ ((as.mapM step).run s).1, Over V p := by
  induction as generalizing s with
  | nil =>
    intro p hp
    cases hp
  | cons a as ih =>
    rw [List.mapM_cons, StateT.run_bind]
    intro p hp
    rcases List.mem_cons.1 hp with rfl | hp
    · exact h a s
    · exact ih _ p hp

theorem over_mediaTypes (maxDepth : Int) (content : Json) : GivesOver templates (mediaTypes maxDepth content) := by
  intro s h hh
  unfold mediaTypes at hh
  split at hh
  · rename_i m ms
    rw [StateT.run_bind] at hh
    have hpanels := over_mapM (fun (m : Text × Json) s => over_mediaPanel maxDepth m.2 s) (m :: ms) s
    cases hrun : ((m :: ms).mapM fun m : Text × Json => mediaPanel maxDepth m.2).run s with
    | mk panels s' =>
      rw [hrun] at hpanels hh
      simp only [bind] at hh
      split at hh
      · cases hh
        exact ⟨over_cardPart ((over_plainCode _).mono rowParts_le), hpanels _ (by simp)⟩
      · cases hh
        exact over_tabs (.mediaTabs _) _ hpanels
  · cases hh

end Schema

end DocPages
