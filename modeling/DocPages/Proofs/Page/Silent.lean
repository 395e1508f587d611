import DocPages.Proofs.Api.Tags
import DocPages.Proofs.Page.Growth
import DocPages.Proofs.Page.Quiet
import DocPages.Proofs.Text.Lines

/-!
# Texts without marks

Every pass looks for what its constructs begin with, so it leaves a text as it is that holds this nowhere. A text without
the marks of the passes in front of those for the API reference goes to these as it has been written, and a text without
any marks goes to the engine.
-/

namespace DocPages

open Text (Clear)

/-- What the passes in front of those for the API reference look for. -/
def constructMarks : List Text :=
  [Element.colons, Element.startTag "Accordion", Element.startTag "Tabs", Element.startTag "Steps",
    Element.startTag "CardGroup", Element.startTag "Card", Element.startTag "APIEndpoint",
    Element.startTag "ParameterTable", "<!--", Code.backticks, "~~~"]

/-- The same, and what lines without content say. -/
def earlierMarks : List Text := constructMarks ++ Artifact.emptySections

/-- What the passes for the API reference and those behind them look for. -/
def laterMarks : List Text :=
  [Api.requestMark, Element.startTag "ChildGrid", Element.startTag "BrowserMockup", "![", "<img"] ++
    Api.Component.all.map Api.openTag

/-- None of the marks occurs in the text. -/
def Silent (marks : List Text) (t : Text) : Prop := ∀ part ∈ marks, ¬ part <:+: t

instance (marks : List Text) (t : Text) : Decidable (Silent marks t) :=
  inferInstanceAs (Decidable (∀ part ∈ marks, ¬ part <:+: t))

theorem Artifact.mem_of_mem_dropEmptySections {line : Text} {ls : List Text} (h : line ∈ dropEmptySections ls) :
    line = [] ∨ line ∈ ls := by
  fun_induction dropEmptySections ls with
  | case1 => exact .inr h
  | case2 => exact .inl (List.mem_singleton.1 h)
  | case3 => exact .inr h
  | case4 first rest _ _ ih => exact (ih h).imp_right (List.mem_cons_of_mem first)
  | case5 first rest _ _ ih =>
    rcases List.mem_cons.1 h with rfl | h
    · exact .inr List.mem_cons_self
    · exact (ih h).imp_right (List.mem_cons_of_mem first)

namespace Silent

variable {marks : List Text} {part t u : Text} {α : Type} {read : Reader Char α}

theorem of_isInfix (h : Silent marks t) (hu : u <:+: t) : Silent marks u := fun part hpart hi => h part hpart (hi.trans hu)

theorem of_subset {more : List Text} (h : Silent more t) (hle : marks ⊆ more) : Silent marks t :=
  fun part hpart => h part (hle hpart)

/-- A text is without marks if it is without a part of each. -/
theorem of_parts {parts : List Text} (h : Silent parts t) (hle : ∀ mark ∈ marks, ∃ part ∈ parts, part <:+: mark) :
    Silent marks t := by
  intro mark hmark hpiece
  obtain ⟨part, hpart, hpart'⟩ := hle mark hmark
  exact h part hpart (hpart'.trans hpiece)

theorem refused (h : Silent marks t) (hread : Begins read part) (hpart : part ∈ marks) : Refused read t [] := by
  refine Text.refused_of_clear hread (Text.clear_iff.2 fun a b hab _ hfront => h part hpart ?_)
  rw [List.append_nil] at hfront
  exact hab ▸ hfront.isInfix.trans (List.suffix_append a b).isInfix

theorem mapFoundM (h : Silent marks t) (hread : Begins read part) (hpart : part ∈ marks)
    (write : α → StateM Work Text) : Text.mapFoundM read write t = pure t :=
  Text.mapFoundM_of_refused (h.refused hread hpart)

/-! ## The passes in front -/

theorem artifact_strip (h : Silent earlierMarks t) : Artifact.strip t = t := by
  refine Markup.strip_eq_self (h.refused Markup.begins_mark (by decide)) fun line hline => ?_
  refine Bool.eq_false_iff.2 fun hsays => ?_
  obtain ⟨words, hwords, hi⟩ := Markup.exists_infix_of_saysEmpty hsays
  exact h words (List.mem_append_right _ hwords) (hi.trans (infix_of_mem_splitWhere hline))

theorem replaceFenced (h : Silent constructMarks t) (write : Text → StateM Work Text) :
    Code.replaceFenced write t = pure t :=
  Code.replaceFenced_of_no_fence (fun c hc => h _ (by rcases hc with rfl | rfl <;> decide)) write

/-- A text without constructs of the passes in front goes to those for the API reference. -/
theorem placeElements_constructs (h : Silent constructMarks t) (r : Renderer) (inner : Text → StateM Work Text) :
    r.placeElements inner t = (do
      let t ← Api.placeComponents r.maxDepth t
      let t ← Renderer.shelveAll (Element.single? "ChildGrid") (fun as => return Element.childGrid as) t
      Renderer.shelveAll (Element.described? "BrowserMockup")
        (fun e => return Element.browserMockup e.attributes (← inner e.body)) t) := by
  have htitled : Renderer.shelveAll Code.titled? (fun b => return b.html) t = pure t :=
    h.mapFoundM Markup.begins_code (by decide) _
  rw [Renderer.placeElements_eq, htitled, pure_bind, h.replaceFenced, pure_bind]
  simp only [Renderer.passes, Renderer.placeTabs, Renderer.shelveAll, Renderer.shelveGroups, List.foldlM_cons, List.foldlM_nil, bind_pure]
  rw [h.mapFoundM Markup.begins_callout (by decide), pure_bind,
    h.mapFoundM (Markup.begins_titled _) (by decide), pure_bind,
    h.mapFoundM (Markup.begins_plain _) (by decide), pure_bind,
    h.mapFoundM (Markup.begins_plain _) (by decide), pure_bind,
    h.mapFoundM (Markup.begins_described _) (by decide), pure_bind,
    h.mapFoundM (Markup.begins_described _) (by decide), pure_bind,
    h.mapFoundM (Markup.begins_described _) (by decide), pure_bind,
    h.mapFoundM (Markup.begins_plain _) (by decide), pure_bind]

theorem placeElements (h : Silent earlierMarks t) (r : Renderer) (inner : Text → StateM Work Text) :
    r.placeElements inner t = (do
      let t ← Api.placeComponents r.maxDepth t
      let t ← Renderer.shelveAll (Element.single? "ChildGrid") (fun as => return Element.childGrid as) t
      Renderer.shelveAll (Element.described? "BrowserMockup")
        (fun e => return Element.browserMockup e.attributes (← inner e.body)) t) :=
  (h.of_subset (List.subset_append_left _ _)).placeElements_constructs r inner

/-! ## All passes -/

theorem placeComponents (h : Silent laterMarks t) (maxDepth : Int) : Api.placeComponents maxDepth t = pure t :=
  Api.placeComponents_of_refused (fun c => h.refused (Markup.begins_occurrence c) (by cases c <;> decide))
    (h _ (by decide)) maxDepth

theorem resolveAll (h : Silent laterMarks t) (root : Text) (resolve : Text → Text) :
    Media.resolveAll root resolve t = t :=
  Media.resolveAll_of_refused (h.refused (Markup.begins_image root) (by decide))
    (h.refused (Markup.begins_imageTag root) (by decide)) resolve

theorem placeElements_eq_self (h : Silent (constructMarks ++ laterMarks) t) (r : Renderer)
    (inner : Text → StateM Work Text) : r.placeElements inner t = pure t := by
  have hlater : Silent laterMarks t := h.of_subset (List.subset_append_right _ _)
  rw [(h.of_subset (List.subset_append_left _ _)).placeElements_constructs, hlater.placeComponents, pure_bind,
    Renderer.shelveAll, hlater.mapFoundM (Markup.begins_single _) (by decide), pure_bind, Renderer.shelveAll,
    hlater.mapFoundM (Markup.begins_described _) (by decide)]

/-- Leaving out lines brings no part of a line about. -/
theorem strip_lines (h : Silent marks t) (hmark : ("<!--" : Text) ∈ marks) (hparts : ∀ part ∈ marks, part ≠ [] ∧ '\n' ∉ part) :
    Silent marks (Artifact.strip t) := by
  intro part hpart hpiece
  obtain ⟨hne, hbreak⟩ := hparts part hpart
  have hremove : Artifact.removeMarks t = t := Text.mapFound_of_refused (h.refused Markup.begins_mark hmark)
  rw [Artifact.strip, hremove] at hpiece
  have hlines : ∀ line ∈ Artifact.dropEmptySections (Text.lines t), '\n' ∉ line := by
    intro line hline hmem
    rcases Artifact.mem_of_mem_dropEmptySections hline with rfl | hline
    · cases hmem
    · exact absurd (not_of_mem_splitWhere hline _ hmem) (by decide)
  obtain ⟨line, hline, hpiece⟩ := Text.exists_line_of_infix_join hne hbreak hlines hpiece
  rcases Artifact.mem_of_mem_dropEmptySections hline with rfl | hline
  · exact hne (List.infix_nil.1 hpiece)
  · exact h part hpart (hpiece.trans (infix_of_mem_splitWhere hline))

/-- A text without constructs goes to the engine, up to lines that say that a section is empty. -/
theorem renderWithin_constructs (h : Silent (constructMarks ++ laterMarks) t) (r : Renderer) (depth : Nat) :
    r.renderWithin (depth + 1) t = pure (r.engine (Artifact.strip t)) := by
  have hstrip : Silent (constructMarks ++ laterMarks) (Artifact.strip t) := h.strip_lines (by decide) (by decide)
  have hlater : Silent laterMarks (Artifact.strip t) := hstrip.of_subset (List.subset_append_right _ _)
  rw [Renderer.renderWithin, hstrip.placeElements_eq_self, pure_bind, hlater.resolveAll]

/-- A text without any marks goes to the engine. -/
theorem renderWithin (h : Silent (earlierMarks ++ laterMarks) t) (r : Renderer) (depth : Nat) :
    r.renderWithin depth t = pure (r.engine t) := by
  have hearlier : Silent earlierMarks t := h.of_subset (List.subset_append_left _ _)
  have hconstructs : Silent (constructMarks ++ laterMarks) t := h.of_subset (by decide)
  cases depth with
  | zero => rfl
  | succ depth => rw [hconstructs.renderWithin_constructs, hearlier.artifact_strip]

end Silent

end DocPages
