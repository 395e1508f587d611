import DocPages.Html.Tabs
import DocPages.Proofs.Html.Template
import DocPages.Proofs.Page.Silent

/-!
# Tab strips

A strip of tabs is written in two places: for the tabs of authors and for those of schemas. Both come to the same
markup, in which the first button and the first panel are active and a button and its panel have the same number. The
pass for tabs makes it of the titles and the rendered bodies of a group as they are written.
-/

namespace DocPages

open Text (Clear)

/-! ## The markup of a strip -/

namespace Html

/-- What the class of a button or a panel says besides; the first is active and no other. -/
def state (i : Nat) : Text := if i = 0 then " active" else []

def buttonText (title : Text) (i : Nat) : Text :=
  startTag .button (classed ("doc-tab-button" ++ state i) ++ (flagged "data-tab-trigger" ++
    valued "data-tab-index" (Text.ofNat i))) ++ (escape title ++ endTag .button)

def panelText (panel : Text) (i : Nat) : Text :=
  startTag .div (classed ("doc-tab-panel" ++ state i) ++ (flagged "data-tab-panel" ++
    valued "data-tab-index" (Text.ofNat i))) ++ (panel ++ endTag .div)

/-- The text of a strip: its buttons, numbered from zero, and its panels with the same numbers. -/
def stripText (id : Text) (titles panels : List Text) : Text :=
  startTag .div (classed "doc-tabs" ++ (flagged "data-tabs" ++ valued "id" id)) ++
    ((startTag .div (classed "doc-tabs-header") ++ ((titles.zipIdx.flatMap fun p => buttonText p.1 p.2) ++ endTag .div)) ++
      (startTag .div (classed "doc-tabs-content") ++ ((panels.zipIdx.flatMap fun p => panelText p.1 p.2) ++ endTag .div)) ++
      endTag .div)

theorem active_eq (cls : Text) (i : Nat) : active cls i = .cls (cls ++ state i) := by
  unfold active state
  split
  · rfl
  · rw [List.append_nil]

theorem write_tabButton (title : Text) (i : Nat) : (tabButton title i).write = buttonText title i := by
  rw [tabButton, write_element, active_eq]
  simp only [List.flatMap_cons, List.flatMap_nil, List.append_nil, write_cls, write_flag, write_fixed]
  rfl

theorem write_tabPanel (panel : Text) (i : Nat) : (tabPanel (.raw panel) i).write = panelText panel i := by
  rw [tabPanel, write_element, active_eq]
  simp only [List.flatMap_cons, List.flatMap_nil, List.append_nil, write_cls, write_flag, write_fixed]
  rfl

theorem tabStrip_nil (id : Text) (titles : List Text) (panels : List Html) :
    tabStrip [] id titles panels = tabs "doc-tabs" id titles panels := by
  have hcls : Text.strip ("doc-tabs ".toList ++ []) = "doc-tabs" := by decide
  rw [tabStrip, hcls]

theorem write_tabStrip (id : Text) (titles panels : List Text) :
    (tabStrip [] id titles (panels.map .raw)).write = stripText id titles panels := by
  have hbuttons : (titles.zipIdx.map fun p => tabButton p.1 p.2).flatMap write =
      titles.zipIdx.flatMap fun p => buttonText p.1 p.2 := by
    simp only [List.flatMap_map, write_tabButton]
  have hpanels : ((panels.map Html.raw).zipIdx.map fun p => tabPanel p.1 p.2).flatMap write =
      panels.zipIdx.flatMap fun p => panelText p.1 p.2 := by
    rw [List.zipIdx_map, List.map_map, List.flatMap_map]
    exact List.flatMap_congr fun p _ => write_tabPanel p.1 p.2
  rw [tabStrip_nil, tabs, write_element, write_append, write_div, write_div, write_concat, write_concat, hbuttons, hpanels]
  simp only [List.flatMap_cons, List.flatMap_nil, List.append_nil, write_cls, write_flag, write_fixed]
  rfl

end Html

namespace Element

theorem tab_eq (i : Nat) (title inner : Text) :
    tab i title inner = (Html.tabButton title i, Html.tabPanel (.raw inner) i) := by
  have hclass (cls : Text) : tabClass cls i = Html.active cls i := by
    rw [Html.active_eq]
    unfold tabClass Html.state
    split <;> rfl
  rw [tab, hclass, hclass]
  rfl

/-- The strip of an author's tabs is that of a schema's, without a further class. -/
theorem tabs_eq_tabStrip (id : Text) (parts : List (Text × Text)) :
    tabs id parts = Html.tabStrip [] id (parts.map Prod.fst) (parts.map fun p => .raw p.2) := by
  rw [Html.tabStrip_nil, Html.tabs, List.zipIdx_map, List.zipIdx_map, List.map_map, List.map_map]
  simp only [tabs, tab_eq, List.unzip_eq_map, List.map_map]
  rfl

end Element

/-! ## Tabs as they are written -/

/-- What a body does not hold, so that nothing in it is taken for a construct. -/
def bodyMarks : List Text := ["<", Element.colons, Code.backticks, "~~~", "!["]

/-- A tab as it is written. Nothing in its body is taken for a construct, and only its tags hold the bracket that tags
begin with. -/
structure TabText where
  /-- What stands in front of the tag. -/
  lead : Text
  space : Text
  title : Text
  gap : Text
  body : Text
  lead_plain : '<' ∉ lead
  space_ne_nil : space ≠ []
  space_blank : ∀ c ∈ space, isBlank c = true
  title_quoted : '"' ∉ title
  title_plain : '<' ∉ title
  gap_blank : ∀ c ∈ gap, isBlank c = true
  body_silent : Silent bodyMarks body

namespace TabText

/-- The start tag. -/
def tag (tab : TabText) : Text :=
  Element.startTag "Tab" ++ (tab.space ++ ("title=\"".toList ++ (tab.title ++ ('"' :: (tab.gap ++ ['>'])))))

/-- The tab without what stands in front of it. -/
def element (tab : TabText) : Text := tab.tag ++ (tab.body ++ Element.endTag "Tab")

def write (tab : TabText) : Text := tab.lead ++ tab.element

def item (tab : TabText) : Element.Labelled := ⟨tab.title, tab.body⟩

theorem body_plain (tab : TabText) : '<' ∉ tab.body := fun hmem =>
  tab.body_silent "<" (by decide) ((List.singleton_infix_iff '<' tab.body).2 hmem)

end TabText

/-- A group of tabs as it is written. -/
structure TabsText where
  gap : Text
  tabs : List TabText
  trail : Text
  gap_blank : ∀ c ∈ gap, isBlank c = true
  trail_plain : '<' ∉ trail

namespace TabsText

def body (g : TabsText) : Text := g.tabs.flatMap TabText.write ++ g.trail

def write (g : TabsText) : Text :=
  Element.startTag "Tabs" ++ (g.gap ++ ('>' :: (g.body ++ Element.endTag "Tabs")))

end TabsText

theorem dropBlanks_append {b : Text} (hb : ∀ c ∈ b, isBlank c = true) {c : Char} (hc : isBlank c = false) (t : Text) :
    Text.dropBlanks (b ++ c :: t) = c :: t := by
  rw [Text.dropBlanks, Text.trimStart, List.dropWhile_append_of_pos hb, List.dropWhile_cons_of_neg (by simp [hc])]

namespace Element

variable (name : Text) {t : Text}

theorem plain?_blanks {gap body : Text} (hgap : ∀ c ∈ gap, isBlank c = true)
    (hbody : Clear (endTag name) body (endTag name ++ t)) :
    plain? name (startTag name ++ (gap ++ '>' :: (body ++ (endTag name ++ t)))) = some (body, t) := by
  have hclose : isBlank '>' = false := by decide
  simp only [plain?, Text.after?_append, bind, Option.bind, dropBlanks_append hgap hclose, Markup.body?_eq hbody]

theorem titled?_blanks {space title gap body : Text} (hspace : space ≠ []) (hblank : ∀ c ∈ space, isBlank c = true)
    (htitle : '"' ∉ title) (hgap : ∀ c ∈ gap, isBlank c = true)
    (hbody : Clear (endTag name) body (endTag name ++ t)) :
    titled? name (startTag name ++ (space ++ ("title=\"" ++ (title ++ ('"' :: (gap ++ ('>' :: (body ++
      (endTag name ++ t))))))))) = some (⟨title, body⟩, t) := by
  obtain ⟨c, more, rfl⟩ := List.exists_cons_of_ne_nil hspace
  have hcut : Text.cut? "\"" (title ++ ('"' :: (gap ++ ('>' :: (body ++ (endTag name ++ t)))))) =
      some (title, gap ++ ('>' :: (body ++ (endTag name ++ t)))) :=
    Text.cut?_append (@Text.clear_of_notMem [] _ _ htitle _)
  have hfirst : isBlank c = true := hblank c List.mem_cons_self
  have hstart (u : Text) : Text.dropBlanks ((c :: more) ++ ("title=\"" ++ u)) = "title=\"" ++ u :=
    dropBlanks_append (c := 't') hblank (by decide) _
  have hclose : isBlank '>' = false := by decide
  simp only [titled?, Text.after?_append, bind, Option.bind, hstart, hcut, dropBlanks_append hgap hclose,
    Markup.body?_eq hbody]
  simp [hfirst]

end Element

/-! ## The pass for tabs -/

namespace TabText

variable {tab : TabText}

theorem clear_body (tab : TabText) (name r : Text) : Clear (Element.endTag name) tab.body r :=
  Text.clear_of_notMem tab.body_plain r

theorem element_ne_nil (tab : TabText) : tab.element ≠ [] := List.cons_ne_nil _ _

theorem titled?_element (tab : TabText) (t : Text) :
    Element.titled? "Tab" (tab.element ++ t) = some (tab.item, t) := by
  have hread := Element.titled?_blanks "Tab" tab.space_ne_nil tab.space_blank tab.title_quoted tab.gap_blank
    (tab.clear_body "Tab" (Element.endTag "Tab" ++ t))
  have htext : tab.element ++ t = Element.startTag "Tab" ++ (tab.space ++ ("title=\"".toList ++ (tab.title ++ ('"' ::
      (tab.gap ++ ('>' :: (tab.body ++ (Element.endTag "Tab" ++ t)))))))) := by
    have hclose (s u : Text) : ('"' :: (tab.gap ++ '>' :: s)) ++ u = '"' :: (tab.gap ++ '>' :: (s ++ u)) := by simp
    simp only [element, tag, List.append_assoc, hclose, List.nil_append]
  rw [htext, hread, item]

theorem found_write (tab : TabText) (t : Text) :
    found (Element.titled? "Tab") (tab.write ++ t) = tab.item :: found (Element.titled? "Tab") t := by
  have hlead : Refused (Element.titled? "Tab") tab.lead (tab.element ++ t) :=
    Text.refused_of_clear (Markup.begins_titled "Tab") (Text.clear_of_notMem tab.lead_plain _)
  rw [write, List.append_assoc, found_append hlead, found_front tab.element_ne_nil (tab.titled?_element t)]

/-- The end tag of the group does not occur in a tab. -/
theorem clear_write (tab : TabText) (r : Text) : Clear (Element.endTag "Tabs") tab.write r := by
  have hspace : '<' ∉ tab.space := fun hmem => absurd (tab.space_blank _ hmem) (by decide)
  have hgap : '<' ∉ tab.gap := fun hmem => absurd (tab.gap_blank _ hmem) (by decide)
  have htag (u : Text) : Clear (Element.endTag "Tabs") tab.tag u := by
    refine .cons (Text.literal_eq_none_iff.2 (by simp [Element.endTag])) (Text.clear_of_notMem ?_ u)
    simp [hspace, hgap, tab.title_plain]
  have hend (u : Text) : Clear (Element.endTag "Tabs") (Element.endTag "Tab") u :=
    .cons (Text.literal_eq_none_iff.2 (by simp [Element.endTag])) (Text.clear_of_notMem (by decide) u)
  exact .append (Text.clear_of_notMem tab.lead_plain _) (.append (htag _) (.append (tab.clear_body "Tabs" _) (hend r)))

/-- The body of a tab is rendered without a trace in the work. -/
theorem renders (tab : TabText) (r : Renderer) (depth : Nat) :
    ∃ u, r.renderWithin depth (Text.strip tab.body) = pure u := by
  have hsilent : Silent bodyMarks (Text.strip tab.body) := tab.body_silent.of_isInfix (Text.trim_isInfix _ _)
  cases depth with
  | zero => exact ⟨_, rfl⟩
  | succ depth => exact ⟨_, (hsilent.of_parts (by decide)).renderWithin_constructs r depth⟩

end TabText

theorem found_tabs (tabs : List TabText) {trail : Text} (htrail : '<' ∉ trail) :
    found (Element.titled? "Tab") (tabs.flatMap TabText.write ++ trail) = tabs.map TabText.item := by
  induction tabs with
  | nil =>
    exact found_eq_nil_iff.2 (Text.refused_of_clear (Markup.begins_titled "Tab") (Text.clear_of_notMem htrail []))
  | cons tab tabs ih => rw [List.flatMap_cons, List.append_assoc, tab.found_write, ih, List.map_cons]

namespace TabsText

theorem clear_body (g : TabsText) (r : Text) : Clear (Element.endTag "Tabs") g.body r := by
  have htabs (tabs : List TabText) (u : Text) : Clear (Element.endTag "Tabs") (tabs.flatMap TabText.write) u := by
    induction tabs with
    | nil => exact .nil _ u
    | cons tab tabs ih => exact (tab.clear_write _).append ih
  exact (htabs g.tabs _).append (Text.clear_of_notMem g.trail_plain r)

theorem plain?_write (g : TabsText) : Element.plain? "Tabs" g.write = some (g.body, []) := by
  have hread := Element.plain?_blanks "Tabs" (t := []) g.gap_blank (g.clear_body _)
  rwa [List.append_nil] at hread

theorem write_ne_nil (g : TabsText) : g.write ≠ [] := List.cons_ne_nil _ _

end TabsText

/-- A text that is a group as a whole gives the place of what its items become. -/
theorem shelveGroups_eq {name item t body : Text} {html : List Element.Labelled → StateM Work Html} (hne : t ≠ [])
    (hread : Element.plain? name t = some (body, [])) (hitems : found (Element.titled? item) body ≠ []) :
    Renderer.shelveGroups name item html t = (do
      Work.shelve (← html (found (Element.titled? item) body)).write) := by
  obtain ⟨e, es, hfound⟩ := List.exists_cons_of_ne_nil hitems
  rw [Renderer.shelveGroups, Text.mapFoundM_whole hne hread, hfound]

theorem mapM_of_pure {α β : Type} {step : α → StateM Work β} {f : α → β} {as : List α}
    (h : ∀ a ∈ as, step a = pure (f a)) : as.mapM step = pure (as.map f) := by
  induction as with
  | nil => rfl
  | cons a as ih =>
    obtain ⟨ha, has⟩ := List.forall_mem_cons.1 h
    rw [List.mapM_cons, ha, pure_bind, ih has, pure_bind, List.map_cons]

/-- **The tabs of a group become one strip**, which is that of a schema without a further class: it has the next id, the
titles and the rendered bodies, its first button and its first panel alone are active, and a button and its panel have
the same number. -/
theorem placeTabs_tabStrip (r : Renderer) (depth : Nat) (g : TabsText) (hne : g.tabs ≠ []) (w : Work) :
    let inner : Text → StateM Work Text := fun t => r.renderWithin depth (Text.strip t)
    let id := IdSupply.id "tabs" (w.ids.count "tabs" + 1)
    let titles := g.tabs.map TabText.title
    let panels := g.tabs.map fun tab => ((inner tab.body).run w).1
    let strip := (Html.tabStrip [] id titles (panels.map .raw)).write
    (Renderer.placeTabs inner g.write).run w =
      (Shelf.place w.shelf.size,
        { w with ids := (IdSupply.draw "tabs" w.ids).2, shelf := ⟨w.shelf.blocks ++ [strip]⟩ }) ∧
      strip = Html.stripText id titles panels := by
  intro inner id titles panels strip
  let parts : List (Text × Text) := g.tabs.map fun tab => (tab.title, ((inner tab.body).run w).1)
  have hfound : found (Element.titled? "Tab") g.body = g.tabs.map TabText.item := found_tabs g.tabs g.trail_plain
  have hparts : (g.tabs.map TabText.item).mapM (fun e => do return (e.label, ← inner e.body)) =
      (pure parts : StateM Work (List (Text × Text))) := by
    rw [List.mapM_map]
    refine mapM_of_pure fun tab _ => ?_
    obtain ⟨u, hu⟩ := tab.renders r depth
    have hinner : inner tab.body = pure u := hu
    have hpanel : ((inner tab.body).run w).1 = u := congrArg (fun step : StateM Work Text => (step.run w).1) hu
    calc (inner tab.body >>= fun panel => pure (tab.title, panel)) = pure (tab.title, u) := by rw [hinner, pure_bind]
      _ = pure (tab.title, ((inner tab.body).run w).1) := by rw [hpanel]
  have hstrip : (Element.tabs id parts).write = strip := by
    rw [Element.tabs_eq_tabStrip]
    simp only [parts, strip, titles, panels, List.map_map]
    rfl
  have hitems : found (Element.titled? "Tab") g.body ≠ [] := by rwa [hfound, ne_eq, List.map_eq_nil_iff]
  refine ⟨?_, Html.write_tabStrip id titles panels⟩
  rw [Renderer.placeTabs, shelveGroups_eq g.write_ne_nil g.plain?_write hitems, hfound, ← hstrip]
  simp only [hparts, pure_bind, bind_assoc]
  rfl

/-- A group of two tabs with line breaks around them. -/
theorem placeTabs_tabStrip_pair :
    let one : TabText := ⟨"\n", " ", "One & all", [], "\nfirst\n", by decide, by decide, by decide, by decide, by decide,
      by decide, by decide⟩
    let two : TabText := ⟨"\n", "\n ", "Two", " ", "second", by decide, by decide, by decide, by decide, by decide,
      by decide, by decide⟩
    let g : TabsText := ⟨[], [one, two], "\n", by decide, by decide⟩
    let r := Renderer.ofSettings {} fun t => "<p>" ++ (t ++ "</p>")
    g.write = "<Tabs>\n<Tab title=\"One & all\">\nfirst\n</Tab>\n<Tab\n title=\"Two\" >second</Tab>\n</Tabs>".toList ∧
      g.tabs ≠ [] ∧
      (Renderer.placeTabs (fun t => r.renderWithin 1 (Text.strip t)) g.write).run Work.fresh =
        (Shelf.place 0, ⟨(IdSupply.draw "tabs" IdSupply.fresh).2,
          ⟨[Html.stripText "tabs-1" ["One & all", "Two"] ["<p>first</p>", "<p>second</p>"]]⟩, []⟩) := by
  intro one two g r
  have hne : g.tabs ≠ [] := List.cons_ne_nil _ _
  obtain ⟨hrun, hstrip⟩ := placeTabs_tabStrip r 1 g hne Work.fresh
  have hid : IdSupply.id "tabs" (Work.fresh.ids.count "tabs" + 1) = "tabs-1" := by decide
  have hpanels : (g.tabs.map fun tab => ((r.renderWithin 1 (Text.strip tab.body)).run Work.fresh).1) =
      ["<p>first</p>", "<p>second</p>"] := by decide +kernel
  rw [hid, hpanels] at hstrip
  refine ⟨by decide, hne, hrun.trans ?_⟩
  rw [hid, hpanels, hstrip]
  rfl

end DocPages
