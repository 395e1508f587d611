import DocPages.Proofs.Page.Pass

/-!
# Nested components on a page

The passes run in an order that has nothing to do with the nesting, so a component may be replaced by an earlier pass
over the region around it, or by the passes over its parent's content. Either way the text goes on showing the same
rendering, and after all passes it stands for it.
-/

namespace DocPages.Markup

open DocPages.Text (Clear)

/-! ## The passes for components with one region -/

section
variable (inner : Text → StateM Work Text)

theorem pass_callout : Pass inner .callout Element.callout?
    fun e => do Work.shelve (← (do return Element.callout e.label (← inner e.body) : StateM Work Html)).write where
  begins := begins_callout
  box := by
    intro b s hb hs
    cases b with
    | callout type known =>
      refine ⟨⟨type, s ++ ['\n']⟩, s ++ ['\n'], .inl rfl, fun t => ?_, by simp [Box.html]⟩
      have hread := callout?_write known (hs (Element.colons ++ t)).tail
      simpa [Box.write, wrap, Box.startLine, Box.kind, Kind.endLine] using hread
    | accordion title => cases hb
    | described d as => cases d <;> cases hb
    | parameterTable => cases hb
  steps hK := by cases hK

theorem pass_accordion : Pass inner .accordion (Element.titled? "Accordion") fun e => do
    Work.shelve (← (do return Element.accordion e.label (← inner e.body) : StateM Work Html)).write where
  begins := begins_titled "Accordion"
  box := by
    intro b s hb hs
    cases b with
    | callout type known => cases hb
    | accordion title =>
      refine ⟨⟨title.text, '\n' :: (s ++ ['\n'])⟩, _, .inr rfl, fun t => ?_, by simp [Box.html]⟩
      have hread := titled?_write title (hs (Element.endTag "Accordion" ++ t))
      simpa [Box.write, wrap, Box.startLine, Box.kind, Kind.endLine] using hread
    | described d as => cases d <;> cases hb
    | parameterTable => cases hb
  steps hK := by cases hK

theorem pass_described (d : Described) : Pass inner d.kind (Element.described? d.name) fun e => do
    Work.shelve (← (do return d.html e.attributes (← inner e.body) : StateM Work Html)).write where
  begins := by cases d <;> exact begins_described _
  box := by
    intro b s hb hs
    have hend : d.kind.endLine = Element.endTag d.name := by cases d <;> rfl
    cases b with
    | callout type known => cases d <;> cases hb
    | accordion title => cases d <;> cases hb
    | described d' as =>
      obtain rfl : d' = d := by cases d <;> cases d' <;> first | rfl | cases hb
      refine ⟨⟨entries as, '\n' :: (s ++ ['\n'])⟩, _, .inr rfl, fun t => ?_, by simp [Box.html]⟩
      rw [hend] at hs
      have hread := described?_write as (hs (Element.endTag d'.name ++ t))
      simpa [Box.write, wrap, Box.startLine, Box.kind, hend] using hread
    | parameterTable => cases d <;> cases hb
  steps hK := by cases d <;> cases hK

theorem pass_parameterTable : Pass inner .parameterTable (Element.plain? "ParameterTable") fun body => do
    Work.shelve (← (do return Element.parameterTable (← inner body) : StateM Work Html)).write where
  begins := begins_plain "ParameterTable"
  box := by
    intro b s hb hs
    cases b with
    | callout type known => cases hb
    | accordion title => cases hb
    | described d as => cases d <;> cases hb
    | parameterTable =>
      refine ⟨'\n' :: (s ++ ['\n']), _, .inr rfl, fun t => ?_, by simp [Box.html]⟩
      have hread := plain?_write (hs (Element.endTag "ParameterTable" ++ t))
      simpa [Box.write, wrap, Box.startLine, Box.kind, Kind.endLine] using hread
  steps hK := by cases hK

end

/-! ## The pass for steps -/

theorem clear_stepEnd {D : Finset Kind} {s : Text} (h : Made D s) (hD : .steps ∉ D) (r : Text) :
    Clear (Element.endTag "Step") s r := by
  have hapart (k : Kind) (hk : k ≠ .steps) : Apart (Element.endTag "Step") k := by
    cases k <;> first | exact absurd rfl hk | decide
  exact h.clear (by decide) (clear_token (by decide)) (fun k hk => hapart k fun he => hD (he ▸ hk)) r

/-- The end of a list of steps does not begin in a step. -/
theorem clear_stepsEnd {D : Finset Kind} {items : List Item} (hD : .steps ∉ D) (h : ∀ i ∈ items, Made D i.content)
    (r : Text) : Clear (Element.endTag "Steps") (joinBlocks (items.map Item.write)) r := by
  have hplain {u : Text} (hu : '<' ∉ u) (v : Text) : Clear (Element.endTag "Steps") u v :=
    Text.clear_of_notMem hu v
  -- The end tags of a step and of the list differ in the last letter only.
  have hend (v : Text) : Clear (Element.endTag "Steps") ('\n' :: Element.endTag "Step") v := by
    have hbreak : Clear (Element.endTag "Steps") ['\n'] (Element.endTag "Step" ++ v) := hplain (by decide) _
    refine hbreak.append (.cons (Text.literal_eq_none_iff.2 ?_) (hplain (by decide) v))
    simp [Element.endTag]
  induction items with
  | nil => exact .nil _ _
  | cons i rest ih =>
    have hline (v : Text) : Clear (Element.endTag "Steps") (titleLine "Step" i.title ++ ['\n']) v :=
      .append (clear_endTag_titleLine rfl (by decide) (by decide) i.title _) (hplain (by decide) v)
    have hitem (v : Text) : Clear (Element.endTag "Steps") i.write v :=
      refused_wrap hline ((h i (by simp)).clear_endLine hD) hend v
    rw [List.map_cons, joinBlocks_cons]
    exact (hitem _).append (.append (hplain (fun hc => absurd (eq_of_mem_separator hc) (by decide)) _)
      (ih fun j hj => h j (List.mem_cons_of_mem i hj)))

/-- The steps of a list are found as they are written. -/
theorem found_steps {D : Finset Kind} {items : List Item} (hD : .steps ∉ D) (h : ∀ i ∈ items, Made D i.content) :
    found (Element.titled? "Step") (joinBlocks (items.map Item.write) ++ ['\n']) =
      items.map fun i => ⟨i.title.text, '\n' :: (i.content ++ ['\n'])⟩ := by
  have hgap (u : Text) (hu : '<' ∉ u) (v : Text) : Refused (Element.titled? "Step") u v :=
    Text.refused_of_clear (begins_titled "Step") (Text.clear_of_notMem hu v)
  induction items with
  | nil => exact found_eq_nil_iff.2 (hgap _ (by decide) [])
  | cons i rest ih =>
    have hseparator : '<' ∉ separator (rest.map Item.write) := fun hc =>
      absurd (eq_of_mem_separator hc) (by decide)
    have hcontent : Made D ('\n' :: (i.content ++ ['\n'])) := .gap ((h i (by simp)).append (.gap .nil))
    have hread (t : Text) : Element.titled? "Step" (i.write ++ t) =
        some (⟨i.title.text, '\n' :: (i.content ++ ['\n'])⟩, t) := by
      have htitled := titled?_write i.title (clear_stepEnd hcontent hD (Element.endTag "Step" ++ t))
      simpa [Item.write, writeStep, wrap] using htitled
    obtain ⟨c, u, hu⟩ : ∃ c u, i.write = c :: u := ⟨'<', _, rfl⟩
    have hrest := ih fun j hj => h j (List.mem_cons_of_mem i hj)
    rw [List.map_cons, joinBlocks_cons, List.append_assoc, List.append_assoc, hu]
    rw [hu] at hread
    rw [found_found (hread _), found_append (hgap _ hseparator _), hrest, List.map_cons]

theorem pass_steps (inner : Text → StateM Work Text) {write : Text → StateM Work Text}
    (hnone : ∀ body, found (Element.titled? "Step") body = [] → write body = pure body)
    (hsome : ∀ body es, found (Element.titled? "Step") body = es → es ≠ [] → write body = do
      Work.shelve (← (do return Element.steps (← es.mapM fun e => return (e.label, ← inner e.body)) :
        StateM Work Html)).write) :
    Pass inner .steps (Element.plain? "Steps") write where
  begins := begins_plain "Steps"
  box := by
    intro b s hb
    cases b with
    | described d as => cases d <;> cases hb
    | _ => cases hb
  steps := by
    intro D items _ hD hitems
    have hbody := found_steps hD hitems
    refine ⟨'\n' :: (joinBlocks (items.map Item.write) ++ ['\n']), fun t => ?_, ?_⟩
    · have hclear : Clear (Element.endTag "Steps") ('\n' :: (joinBlocks (items.map Item.write) ++ ['\n']))
          (Element.endTag "Steps" ++ t) :=
        .append (s := ['\n']) (Text.clear_of_notMem (by decide) _) (.append (clear_stepsEnd hD hitems _)
          (Text.clear_of_notMem (by decide) _))
      have hread := plain?_write hclear
      simpa [writeSteps, wrap, Kind.endLine] using hread
    · have hgap : Refused (Element.titled? "Step") ['\n'] (joinBlocks (items.map Item.write) ++ ['\n']) :=
        Text.refused_of_clear (begins_titled "Step") (Text.clear_of_notMem (by decide) _)
      have hfound := (found_append hgap).trans hbody
      cases items with
      | nil => exact hnone _ hfound
      | cons i rest =>
        have hwrite := hsome _ _ hfound (by simp)
        rw [List.mapM_map] at hwrite
        exact hwrite.trans (by simp [placeSteps, Function.comp_def])

/-! ## All passes -/

theorem apart_startMark {K k : Kind} (hne : k ≠ K) (hgroup : K = .card → k ≠ .cardGroup) :
    Apart K.startMark k := by
  revert hgroup
  cases K <;> cases k <;> first | exact absurd rfl hne | exact fun h => absurd rfl (h rfl) | exact fun _ => by decide

/-- All passes together replace every component. The pass for cards relies on that for groups of cards before it. -/
theorem leads_placeElements (r : Renderer) {inner : Text → StateM Work Text} {depth : Nat}
    (hinner : Renders depth inner) {done : List Text} {D : Finset Kind} {t z : Text} (hcard : D.card ≤ depth + 1)
    (h : Shows done D t z) : Leads done (r.placeElements inner t) fun done' u => Shows done' ∅ u z := by
  have hpass {K : Kind} {α : Type} {read : Reader Char α} {write : α → StateM Work Text}
      (hp : Pass inner K read write) {E : Finset Kind} (hE : E ⊆ D) (hgroup : K = .card → .cardGroup ∉ E)
      {done : List Text} {t : Text} (h : Shows done E t z) :
      Leads done (Text.mapFoundM read write t) fun done' u => Shows done' (E.erase K) u z :=
    hp.leads hinner (fun k hk hne => apart_startMark hne fun hK he => hgroup hK (he ▸ hk))
      ((Finset.card_le_card hE).trans hcard) h done List.prefix_rfl
  have hquiet {E : Finset Kind} {step : StateM Work Text} {done : List Text} {t : Text} (hstep : step = pure t)
      (h : Shows done E t z) : Leads done step fun done' u => Shows done' E u z := hstep ▸ .pure h
  have hforeign {c : Char} {part : Text} {α : Type} {read : Reader Char α} {write : α → StateM Work Text}
      (hread : Begins read (c :: part)) (hpart : c :: part ∈ foreign) {E : Finset Kind} {done : List Text} {t : Text}
      (h : Shows done E t z) : Leads done (Text.mapFoundM read write t) fun done' u => Shows done' E u z :=
    hquiet (h.made.mapFoundM_foreign hread hpart write) h
  -- One step for each pass, in their order: it takes its own kind off the set, or it finds nothing to replace.
  unfold Renderer.placeElements
  refine (hforeign begins_code (by decide) h).bind fun done t _ h => ?_
  refine (hquiet (h.made.replaceFenced _) h).bind fun done t _ h => ?_
  refine (hpass (pass_callout inner) (Finset.Subset.refl D) (by simp) h).bind fun done t _ h => ?_
  refine (hpass (pass_accordion inner) (by grind) (by simp) h).bind fun done t _ h => ?_
  refine (hforeign (begins_plain "Tabs") (by decide) h).bind fun done t _ h => ?_
  refine (hpass (pass_steps inner ?_ ?_) (by grind) (by simp) h).bind fun done t _ h => ?_
  · intro body hnone
    rw [hnone]
  · intro body es hes hne
    obtain ⟨e, es, rfl⟩ := List.exists_cons_of_ne_nil hne
    rw [hes]
  refine (hpass (pass_described inner .cardGroup) (by grind) (by simp [Described.kind]) h).bind fun done t _ h => ?_
  refine (hpass (pass_described inner .card) (by grind) (by simp [Described.kind]) h).bind fun done t _ h => ?_
  refine (hforeign (begins_described "APIEndpoint") (by decide) h).bind fun done t _ h => ?_
  refine (hpass (pass_parameterTable inner) (by grind) (by simp) h).bind fun done t _ h => ?_
  refine (hquiet (h.made.placeComponents _) h).bind fun done t _ h => ?_
  refine (hforeign (begins_single "ChildGrid") (by decide) h).bind fun done t _ h => ?_
  refine (hpass (pass_described inner .browserMockup) (by grind) (by simp [Described.kind]) h).imp fun done t _ h => ?_
  have hempty : ((((((D.erase .callout).erase .accordion).erase .steps).erase .cardGroup).erase .card).erase
      .parameterTable).erase .browserMockup = ∅ := by
    ext k
    cases k <;> simp
  exact hempty ▸ h

theorem stands_echo {done : List Text} {t z : Text} (h : Stands done t z) : Stands done (echo t) (echo z) :=
  (Stands.plain (t := "[[md:") (by decide) done).append h |>.append (.plain (t := "]]") (by decide) done)

/-- A region is rendered to what stands for its direct rendering, if the depth suffices for the kinds in it. -/
theorem leads_renderWithin (r : Renderer) (depth : Nat) {done : List Text} {D : Finset Kind} {t z : Text}
    (hcard : D.card ≤ depth) (h : Shows done D t z) :
    Leads done (r.echoing.renderWithin depth t) fun done' u => Stands done' u (echo z) := by
  induction depth generalizing done D t z with
  | zero => exact .pure (stands_echo (h.stands (Finset.card_eq_zero.1 (Nat.le_zero.1 hcard))))
  | succ depth ih =>
    have hinner : Renders depth fun t => r.echoing.renderWithin depth (Text.strip t) :=
      fun _ _ _ _ hcard h => ih hcard h.strip
    rw [Renderer.renderWithin, h.made.artifact_strip]
    refine (leads_placeElements r.echoing hinner hcard h).bind fun done t _ h => ?_
    rw [h.made.resolveAll]
    exact .pure (stands_echo (h.stands rfl))

/-! ## Documents -/

theorem shows_separator {done : List Text} {D : Finset Kind} {t z : Text} (rest : List Text)
    (h : Shows done D t z) : Shows done D (separator rest ++ t) z := by
  unfold separator
  split
  · exact h
  · exact .gap (.gap h)

mutual
/-- Before the passes the text of a forest shows its rendering. -/
theorem Forest.shows {D : Finset Kind} : ∀ f : Forest, f.kinds ⊆ D → f.Unnested →
    Shows [] D (joinBlocks f.blocks) f.html
  | .nil, _, _ => .nil D
  | .text p rest, hD, h => by
    rw [Forest.blocks, joinBlocks_cons]
    exact .words p (shows_separator _ (rest.shows hD h))
  | .box b content rest, hD, h => by
    obtain ⟨hb, hcontent, hrest⟩ := h
    simp only [Forest.kinds, Finset.insert_subset_iff, Finset.union_subset_iff] at hD
    rw [Forest.blocks, joinBlocks_cons]
    refine .box b hD.1 (content.shows (fun k hk => ?_) hcontent) (shows_separator _ (rest.shows hD.2.2 hrest))
    exact Finset.mem_erase.2 ⟨fun he => hb (he ▸ hk), hD.2.1 hk⟩
  | .steps items rest, hD, h => by
    obtain ⟨hsteps, hitems, hrest⟩ := h
    simp only [Forest.kinds, Finset.insert_subset_iff, Finset.union_subset_iff] at hD
    have hkinds : items.kinds ⊆ D.erase .steps := fun k hk =>
      Finset.mem_erase.2 ⟨fun he => hsteps (he ▸ hk), hD.2.1 hk⟩
    obtain ⟨is, hwrite, hpart, hshows⟩ := items.shows hkinds hitems
    rw [Forest.blocks, joinBlocks_cons, Forest.html, ← hwrite, ← hpart]
    exact .steps hD.1 hshows (shows_separator _ (rest.shows hD.2.2 hrest))
theorem Steps.shows {D : Finset Kind} : ∀ items : Steps, items.kinds ⊆ D → items.Unnested →
    ∃ is : List Item, is.map Item.write = items.blocks ∧ is.map Item.part = items.parts ∧
      ∀ i ∈ is, Shows [] D i.content i.view
  | .nil, _, _ => ⟨[], rfl, rfl, by simp⟩
  | .step title content rest, hD, h => by
    obtain ⟨hcontent, hrest⟩ := h
    obtain ⟨hD, hD'⟩ := Finset.union_subset_iff.1 hD
    obtain ⟨is, hwrite, hpart, hshows⟩ := rest.shows hD' hrest
    refine ⟨⟨title, joinBlocks content.blocks, content.html⟩ :: is, ?_, ?_, ?_⟩
    · rw [List.map_cons, hwrite]
      rfl
    · rw [List.map_cons, hpart]
      rfl
    · exact List.forall_mem_cons.2 ⟨content.shows hD hcontent, hshows⟩
end

theorem Forest.write_ne_nil {f : Forest} (h : f ≠ .nil) : f.write ≠ [] := by
  have hsolid {s : Text} (hs : Solid s) (rest : List Text) : joinBlocks (s :: rest) ≠ [] := by
    rw [joinBlocks_cons]
    exact List.append_ne_nil_of_left_ne_nil hs.ne_nil _
  cases f with
  | nil => exact absurd rfl h
  | text p rest => exact hsolid p.solid _
  | box b content rest => exact hsolid (b.solid_write _) _
  | steps items rest => exact hsolid (solid_writeSteps _) _

theorem Forest.page_of_ne_nil {f : Forest} (h : f ≠ .nil) : f.page = echo f.html := by
  cases f with
  | nil => exact absurd rfl h
  | _ => rfl

/-- Up to line breaks the page of a document in which no component stands inside another of its kind is its direct
rendering: every block is rendered once, inside its own parent. -/
theorem squash_page_write (r : Renderer) (f : Forest) (h : f.Unnested) :
    squash (r.echoing.page f.write).html = squash f.page := by
  by_cases hnil : f = .nil
  · subst hnil
    rfl
  · have hshows : Shows [] f.kinds f.write f.html := f.shows (Finset.Subset.refl _) h
    have hsplit : FrontMatter.split f.write = ([], f.write) :=
      FrontMatter.split_of_head (hshows.made.head_ne (by decide))
    have hcard : f.kinds.card ≤ f.write.length + 1 := f.card_kinds_le.trans (Nat.le_succ _)
    obtain ⟨done, -, hwork, hstands⟩ := leads_renderWithin r _ hcard hshows Work.fresh Work.expands_fresh
    obtain ⟨hblocks, hhtml⟩ := Renderer.page_of_not_isEmpty (r := r.echoing) (by simpa using f.write_ne_nil hnil)
    have hheader : (endpointHeader []).write = [] := rfl
    have hshelf (s : Shelf) : (⟨s.blocks⟩ : Shelf) = s := rfl
    rw [hhtml, hblocks, hsplit, f.page_of_ne_nil hnil, hheader, List.nil_append, Renderer.render]
    dsimp only
    rw [hshelf]
    exact hwork.restore hstands

/-- A card in a step in an accordion, which stands in front of a paragraph. The pass for accordions comes first. -/
theorem squash_page_write_accordion :
    let more : Phrase := ⟨"more", by decide, by decide, by decide⟩
    let one : Phrase := ⟨"step one", by decide, by decide, by decide⟩
    let card : Box := .described .card [⟨"title", .quoted more, by decide, by decide⟩]
    let inside : Forest := .steps (.step one (.box card (.text one .nil) .nil) .nil) .nil
    let f : Forest := .box (.accordion more) inside (.text one .nil)
    let r : Renderer := .ofSettings {} id
    f.write = "<Accordion title=\"more\">\n<Steps>\n<Step title=\"step one\">\n<Card title=\"more\">\n".toList ++
        "step one\n</Card>\n</Step>\n</Steps>\n</Accordion>\n\nstep one".toList ∧ f.Unnested ∧
      squash (r.echoing.page f.write).html = squash f.page := by
  intro more one card inside f r
  have hf : f.Unnested := by decide
  exact ⟨by decide, hf, squash_page_write r f hf⟩

end DocPages.Markup
