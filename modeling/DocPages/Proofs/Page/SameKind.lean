import DocPages.Proofs.Page.Nesting

/-!
# Components inside others of their kind

A component ends at the first end tag of its name. So of accordions inside each other only the outermost one is
replaced: its content ends with the innermost paragraph, where the start tags of the others stay as text, and their
end tags are left behind it.
-/

namespace DocPages.Markup

open DocPages.Shelf (Part)
open DocPages.Text (Clear)

/-- Accordions inside each other around a paragraph, the outermost first. -/
def nest (titles : List Phrase) (p : Phrase) : Forest :=
  titles.foldr (fun title f => .box (.accordion title) f .nil) (.text p .nil)

/-- The start tags of accordions and the paragraph inside them. -/
def openings (titles : List Phrase) (p : Phrase) : Text :=
  titles.flatMap (fun title => titleLine "Accordion" title ++ ['\n']) ++ p.text

/-- The end tags of accordions, each on a line of its own. -/
def closings : Nat → Text
  | 0 => []
  | n + 1 => '\n' :: (Element.endTag "Accordion" ++ closings n)

theorem closings_succ (n : Nat) : closings (n + 1) = closings n ++ '\n' :: Element.endTag "Accordion" := by
  induction n with
  | zero => simp [closings]
  | succ n ih =>
    calc closings (n + 1 + 1) = '\n' :: (Element.endTag "Accordion" ++ closings (n + 1)) := rfl
      _ = '\n' :: (Element.endTag "Accordion" ++ (closings n ++ '\n' :: Element.endTag "Accordion")) := by rw [ih]
      _ = closings (n + 1) ++ '\n' :: Element.endTag "Accordion" := by simp [closings]

theorem write_nest (titles : List Phrase) (p : Phrase) :
    (nest titles p).write = openings titles p ++ closings titles.length := by
  induction titles with
  | nil => simp [nest, openings, closings, Forest.write, Forest.blocks, joinBlocks, Text.join]
  | cons title titles ih =>
    have hcons : (nest (title :: titles) p).write =
        wrap (titleLine "Accordion" title) (Element.endTag "Accordion") (nest titles p).write := by
      rfl
    rw [hcons, ih, List.length_cons, closings_succ]
    simp [wrap, openings]

/-! ## The passes over a text with lines of accordions only -/

section
variable {titles : List Phrase} {p : Phrase} {t : Text}

theorem made_openings (titles : List Phrase) (p : Phrase) : Made {.accordion} (openings titles p) := by
  induction titles with
  | nil => exact .ofPhrase p
  | cons title titles ih =>
    have hline : Made {.accordion} (titleLine "Accordion" title) :=
      .titleLine title (k := .accordion) (by simp) (by decide)
    have happend := hline.append (.gap ih)
    simpa [openings] using happend

theorem made_closings (n : Nat) : Made {.accordion} (closings n) := by
  induction n with
  | zero => exact .nil
  | succ n ih => exact .gap ((Made.endLine (k := .accordion) (by simp)).append ih)

theorem made_nest (titles : List Phrase) (p : Phrase) : Made {.accordion} (nest titles p).write := by
  rw [write_nest]
  exact (made_openings titles p).append (made_closings titles.length)

theorem clear_openings (titles : List Phrase) (p : Phrase) (r : Text) :
    Clear (Element.endTag "Accordion") (openings titles p) r := by
  have hwords : '<' ∉ p.text := p.notMem (by decide) (by decide)
  induction titles with
  | nil => exact Text.clear_of_notMem hwords r
  | cons title titles ih =>
    have hline (v : Text) : Clear (Element.endTag "Accordion") (titleLine "Accordion" title ++ ['\n']) v :=
      .append (clear_endTag_titleLine rfl (by decide) (by decide) title _) (Text.clear_of_notMem (by decide) v)
    have happend := (hline (openings titles p ++ r)).append ih
    simpa [openings] using happend

theorem clear_closings (n : Nat) (r : Text) : Clear (Element.startTag "Accordion") (closings n) r := by
  induction n with
  | zero => exact .nil _ r
  | succ n ih =>
    have hline (v : Text) : Clear (Element.startTag "Accordion") ('\n' :: Element.endTag "Accordion") v := by
      have hbreak : Clear (Element.startTag "Accordion") ['\n'] (Element.endTag "Accordion" ++ v) :=
        Text.clear_of_notMem (by decide) _
      refine hbreak.append (.cons (Text.literal_eq_none_iff.2 ?_) (Text.clear_of_notMem (by decide) v))
      simp [Element.startTag]
    exact (hline _).append ih

/-- The pass for accordions. -/
def placeAccordions (inner : Text → StateM Work Text) (t : Text) : StateM Work Text :=
  Renderer.shelveAll (Element.titled? "Accordion") (fun e => return Element.accordion e.label (← inner e.body)) t

/-- In a text without lines of other components only the pass for accordions does anything. -/
theorem placeElements_eq (r : Renderer) {inner : Text → StateM Work Text} (h : Made {.accordion} t)
    (hplaced : ∀ w, Made {.accordion} ((placeAccordions inner t).run w).1) :
    r.placeElements inner t = placeAccordions inner t := by
  have hother {K : Kind} (hK : K ≠ .accordion) {α : Type} {read : Reader Char α} (hread : Begins read K.startMark)
      {u : Text} (hu : Made {.accordion} u) (write : α → StateM Work Text) :
      Text.mapFoundM read write u = pure u := by
    refine Text.mapFoundM_of_refused (Text.refused_of_clear hread (hu.clear_startMark (fun k hk => ?_) []))
    obtain rfl : k = .accordion := by simpa using hk
    exact apart_startMark (Ne.symm hK) fun _ => by decide
  -- The text behind the pass for accordions depends on the work, so the later passes are taken off for all texts of
  -- that form.
  have hstay {step : StateM Work Text} {next : Text → StateM Work Text}
      (hstep : ∀ w, Made {.accordion} (step.run w).1)
      (hnext : ∀ u, Made {.accordion} u → next u = pure u) : step >>= next = step := by
    refine StateT.ext fun w => ?_
    rw [StateT.run_bind]
    exact congrArg (fun s : StateM Work Text => s.run (step.run w).2) (hnext _ (hstep w))
  unfold Renderer.placeElements Renderer.placeTabs Renderer.shelveGroups
  simp only [Renderer.shelveAll]
  rw [h.mapFoundM_foreign begins_code (by decide), pure_bind, h.replaceFenced, pure_bind,
    hother (K := .callout) (by decide) begins_callout h, pure_bind]
  refine hstay hplaced fun u hu => ?_
  rw [hu.mapFoundM_foreign (begins_plain "Tabs") (by decide), pure_bind,
    hother (K := .steps) (by decide) (begins_plain "Steps") hu, pure_bind,
    hother (K := .cardGroup) (by decide) (begins_described "CardGroup") hu, pure_bind,
    hother (K := .card) (by decide) (begins_described "Card") hu, pure_bind,
    hu.mapFoundM_foreign (begins_described "APIEndpoint") (by decide), pure_bind,
    hother (K := .parameterTable) (by decide) (begins_plain "ParameterTable") hu, pure_bind,
    hu.placeComponents, pure_bind, hu.mapFoundM_foreign (begins_single "ChildGrid") (by decide), pure_bind]
  exact hother (K := .browserMockup) (by decide) (begins_described "BrowserMockup") hu _

/-- Without an end tag of its name a component is not read. -/
theorem titled?_eq_none {name : Text} (h : ¬ Element.endTag name <:+: t) : Element.titled? name t = none := by
  unfold Element.titled?
  refine Option.bind_eq_none_iff.2 fun t₁ h₁ => ?_
  have h₁ : t₁ <:+ t := ⟨_, (Text.eq_append_of_after? h₁).symm⟩
  split
  · rfl
  refine Option.bind_eq_none_iff.2 fun t₂ h₂ => ?_
  have h₂ : t₂ <:+ t := .trans ⟨_, (Text.eq_append_of_after? h₂).symm⟩ ((List.dropWhile_suffix _).trans h₁)
  refine Option.bind_eq_none_iff.2 fun c hc => ?_
  obtain ⟨title, t₃⟩ := c
  have h₃ : t₃ <:+ t := .trans ⟨title ++ "\"", (Text.eq_of_cut? hc).symm⟩ h₂
  dsimp only
  split
  · rename_i u hu
    have hdrop : '>' :: u <:+ t₃ := hu ▸ List.dropWhile_suffix _
    have hbody : u <:+: t := ((List.suffix_cons '>' u).trans (hdrop.trans h₃)).isInfix
    have hnone : Element.body? name u = none := Text.cut?_eq_none_iff.2 fun hend => h (hend.trans hbody)
    simp [hnone]
  · rfl

theorem refused_openings (titles : List Phrase) (p : Phrase) :
    Refused (Element.titled? "Accordion") (openings titles p) [] := by
  have hend : ¬ Element.endTag "Accordion" <:+: openings titles p :=
    (clear_openings titles p []).infix_free (by simp [Element.endTag])
  intro a b hab _
  rw [List.append_nil]
  exact titled?_eq_none fun hb => hend (hb.trans ⟨a, [], by simp [hab]⟩)

theorem solid_openings (titles : List Phrase) (p : Phrase) : Solid (openings titles p) := by
  obtain ⟨u, c, hu, hc⟩ := p.solid.last
  let lines : Text := titles.flatMap fun title => titleLine "Accordion" title ++ ['\n']
  refine ⟨?_, ⟨lines ++ u, c, by simp [lines, openings, hu], hc⟩⟩
  cases titles with
  | nil => exact p.solid.first
  | cons title titles => exact ⟨'<', _, rfl, by decide⟩

/-- The region inside the outermost accordion is no more than a text. -/
theorem renderWithin_openings (r : Renderer) (depth : Nat) (titles : List Phrase) (p : Phrase) :
    r.echoing.renderWithin depth (openings titles p) = pure (echo (openings titles p)) := by
  cases depth with
  | zero => rfl
  | succ depth =>
    have hmade := made_openings titles p
    have hplaced (inner : Text → StateM Work Text) :
        placeAccordions inner (openings titles p) = pure (openings titles p) :=
      Text.mapFoundM_of_refused (refused_openings titles p)
    rw [Renderer.renderWithin, hmade.artifact_strip, placeElements_eq _ hmade fun w => by rw [hplaced]; exact hmade,
      hplaced, pure_bind, hmade.resolveAll]
    rfl

/-- The pass takes the first end tag for that of the outermost accordion. -/
theorem placeAccordions_nest (inner : Text → StateM Work Text) (title : Phrase) (titles : List Phrase) (p : Phrase) :
    placeAccordions inner (nest (title :: titles) p).write = (fun place => place ++ closings titles.length) <$> (do
      let u ← inner ('\n' :: (openings titles p ++ ['\n']))
      Work.shelve (Element.accordion title.text u).write) := by
  have hbreak (r : Text) : Clear (Element.endTag "Accordion") ['\n'] r := Text.clear_of_notMem (by decide) r
  have hread := titled?_write title (.append (hbreak _) (.append (clear_openings titles p _)
    (hbreak (Element.endTag "Accordion" ++ closings titles.length))))
  have hrest : placeAccordions inner (closings titles.length) = pure (closings titles.length) :=
    Text.mapFoundM_of_refused (Text.refused_of_clear (begins_titled "Accordion") (clear_closings titles.length []))
  have hwrite : (nest (title :: titles) p).write = titleLine "Accordion" title ++
      ((['\n'] ++ (openings titles p ++ ['\n'])) ++ (Element.endTag "Accordion" ++ closings titles.length)) := by
    rw [write_nest]
    simp [openings, closings]
  have hfound : placeAccordions inner (nest (title :: titles) p).write = (do
      let place ← (do
        let u ← inner ('\n' :: (openings titles p ++ ['\n']))
        Work.shelve (Element.accordion title.text u).write)
      let rest ← placeAccordions inner (closings titles.length)
      return place ++ rest) := by
    have hfront : titleLine "Accordion" title ++ ((['\n'] ++ (openings titles p ++ ['\n'])) ++
        Element.endTag "Accordion") ≠ [] := by
      simp [titleLine, Element.startTag]
    rw [hwrite]
    simp only [← List.append_assoc] at hread hfront ⊢
    refine (Text.mapFoundM_front hfront hread).trans ?_
    simp [placeAccordions, Renderer.shelveAll]
  rw [hfound, hrest]
  simp

/-- The pass leaves one token, with the end tags of the other accordions behind it. -/
theorem renderWithin_nest (r : Renderer) (depth : Nat) (title : Phrase) (titles : List Phrase) (p : Phrase) :
    r.echoing.renderWithin (depth + 1) (nest (title :: titles) p).write =
      (fun place => echo (place ++ closings titles.length)) <$>
        Work.shelve (Element.accordion title.text (echo (openings titles p))).write := by
  let f : Text := (nest (title :: titles) p).write
  let inner : Text → StateM Work Text := fun t => r.echoing.renderWithin depth (Text.strip t)
  have hmade : Made {.accordion} f := made_nest _ p
  have hleft (n : Nat) : Made {.accordion} (Shelf.place n ++ closings titles.length) := by
    have hplace := Made.gap (.gap (.token n (.gap (.gap (made_closings titles.length)))))
    simpa [Shelf.place] using hplace
  have hplace : placeAccordions inner f = (fun place => place ++ closings titles.length) <$>
      Work.shelve (Element.accordion title.text (echo (openings titles p))).write := by
    have hinner : inner ('\n' :: (openings titles p ++ ['\n'])) = pure (echo (openings titles p)) := by
      simp only [inner, (solid_openings titles p).strip_lines, renderWithin_openings]
    rw [placeAccordions_nest, hinner, pure_bind]
  have hplaced (w : Work) : Made {.accordion} ((placeAccordions inner f).run w).1 := by
    rw [hplace]
    exact hleft w.shelf.size
  rw [Renderer.renderWithin, hmade.artifact_strip, placeElements_eq _ hmade hplaced, hplace]
  refine StateT.ext fun w => ?_
  have hresolve := (hleft w.shelf.size).resolveAll r.mediaRoot r.resolve
  exact congrArg (fun t => (echo t, (Work.shelve (Element.accordion title.text (echo (openings titles p))).write w).2))
    hresolve

/-! ## The page -/

/-- The only block of the page. -/
def outermost (title : Phrase) (titles : List Phrase) (p : Phrase) : Text :=
  (Element.accordion title.text (echo (openings titles p))).write

theorem F_notMem_openings (titles : List Phrase) (p : Phrase) : 'F' ∉ openings titles p := by
  have hphrase (q : Phrase) : 'F' ∉ q.text := q.notMem (by decide) (by decide)
  have hline (q : Phrase) : 'F' ∉ titleLine "Accordion" q ++ ['\n'] := by
    simp [titleLine, Element.startTag, hphrase q]
  intro hF
  rcases List.mem_append.1 hF with hF | hF
  · obtain ⟨q, -, hq⟩ := List.mem_flatMap.1 hF
    exact hline q hq
  · exact hphrase p hF

theorem F_notMem_closings (n : Nat) : 'F' ∉ closings n := by
  induction n with
  | zero => decide
  | succ n ih => simp [closings, Element.endTag, ih]

/-- The engine adds characters of its own only. -/
theorem notMem_echo {c : Char} (hc : c ∉ echo []) (h : c ∉ t) : c ∉ echo t := by
  simp only [echo, List.append_nil, List.mem_append, not_or] at hc ⊢
  exact ⟨⟨hc.1, h⟩, hc.2⟩

theorem closed_outermost (title : Phrase) (titles : List Phrase) (p : Phrase) : Closed (outermost title titles p) := by
  obtain ⟨front, back, hfront, hback, hwrite⟩ := frames_accordion (title.notMem (c := 'F') (by decide) (by decide))
  rw [outermost, hwrite]
  exact .append hfront.plain (.append (notMem_echo (by decide) (F_notMem_openings titles p)) hback)

/-- The tags inside the outermost accordion are text in its block. -/
theorem openings_infix_outermost (title : Phrase) (titles : List Phrase) (p : Phrase) :
    openings titles p <:+: outermost title titles p := by
  obtain ⟨front, back, -, -, hwrite⟩ := frames_accordion (title.notMem (c := 'F') (by decide) (by decide))
  exact ⟨front ++ "[[md:", "]]" ++ back, by simp [outermost, hwrite, echo]⟩

/-- What is left behind the block ends with brackets, so no paragraph begins at its end. -/
theorem harmless_rest (n : Nat) : (Part.plain ("\n\n" ++ (closings n ++ "]]"))).Harmless := by
  refine ⟨by simp [F_notMem_closings], fun s hs hsuffix => ?_⟩
  obtain ⟨u, hu⟩ := hsuffix
  have hlast := congrArg List.reverse hu
  simp only [Shelf.openings, List.mem_cons, List.not_mem_nil, or_false] at hs
  rcases hs with rfl | rfl | rfl <;> simp at hlast

/-- The block is put back in front of the end tags that are left. -/
theorem restore_outermost (title : Phrase) (titles : List Phrase) (p : Phrase) :
    Shelf.restore ⟨[outermost title titles p]⟩ (echo (Shelf.place 0 ++ closings titles.length)) =
      echo ("\n\n" ++ outermost title titles p ++ "\n\n" ++ closings titles.length) := by
  let block : List Part := [.plain (outermost title titles p)]
  let ps : List Part := [.plain "[[md:\n\n", .ref 0 false, .plain ("\n\n" ++ (closings titles.length ++ "]]"))]
  have hsafe : ∀ qs ∈ [block], ∀ q ∈ qs, q.Harmless := by
    simpa [block] using (closed_outermost title titles p).harmless
  have hps : ∀ q ∈ ps, q.Harmless := by
    intro q hq
    simp only [ps, List.mem_cons, List.not_mem_nil, or_false] at hq
    rcases hq with rfl | rfl | rfl
    · decide
    · trivial
    · exact harmless_rest titles.length
  have holder : ∀ i qs, [block][i]? = some qs → Shelf.RefsBelow i qs := by
    intro i qs hi k b hk
    obtain rfl : qs = block := List.mem_singleton.1 (List.mem_of_getElem? hi)
    simp [block] at hk
  obtain ⟨ps', hrestore, hexpand, -, -⟩ := Shelf.restore_write hsafe hps holder
  have hblock : Shelf.write block = outermost title titles p := by simp [block, Shelf.write, Part.write]
  have hwrite : Shelf.write ps = echo (Shelf.place 0 ++ closings titles.length) := by
    simp [ps, Shelf.write, Part.write, Shelf.opening, Shelf.closing, Shelf.place, echo]
  have hfill : Shelf.expand [block] ps =
      echo ("\n\n" ++ outermost title titles p ++ "\n\n" ++ closings titles.length) := by
    simp [ps, block, Shelf.expand, Shelf.expansions, Shelf.fill, echo]
  rw [hexpand, hfill, hwrite, List.map_singleton, hblock] at hrestore
  exact hrestore

theorem page_nest (r : Renderer) (title : Phrase) (titles : List Phrase) (p : Phrase) :
    (r.echoing.page (nest (title :: titles) p).write).blocks = [outermost title titles p] ∧
      (r.echoing.page (nest (title :: titles) p).write).html =
        echo ("\n\n" ++ outermost title titles p ++ "\n\n" ++ closings titles.length) := by
  have hsplit := FrontMatter.split_of_head ((made_nest (title :: titles) p).head_ne (by decide))
  have hne : (nest (title :: titles) p).write ≠ [] := Forest.write_ne_nil (by simp [nest])
  obtain ⟨hblocks, hhtml⟩ := Renderer.page_of_not_isEmpty (r := r.echoing) (List.isEmpty_eq_false_iff.2 hne)
  have hrender := renderWithin_nest r (nest (title :: titles) p).write.length title titles p
  have hrun : (r.echoing.render (nest (title :: titles) p).write).run Work.fresh =
      (echo (Shelf.place 0 ++ closings titles.length), (Work.shelve (outermost title titles p) Work.fresh).2) := by
    rw [Renderer.render, hrender]
    rfl
  have hheader : (endpointHeader []).write = [] := rfl
  rw [hsplit] at hblocks hhtml
  dsimp only at hblocks hhtml
  rw [hrun] at hblocks hhtml
  have hblocks : (r.echoing.page (nest (title :: titles) p).write).blocks = [outermost title titles p] := hblocks
  refine ⟨hblocks, ?_⟩
  rw [hhtml, hblocks, hheader, List.nil_append]
  exact restore_outermost title titles p

/-- The template of an accordion holds no capital A, unlike its tags. -/
theorem A_notMem_accordion {title u : Text} (htitle : 'A' ∉ title) (hu : 'A' ∉ u) :
    'A' ∉ (Element.accordion title u).write := by
  have hlabel : 'A' ∉ (Html.element .span [] (.text title)).write :=
    plain_element rfl (by decide) (plain_escape rfl htitle)
  have hchevron : 'A' ∉ Icon.chevron.write := by decide
  exact plain_element rfl (by decide) (plain_append
    (plain_element rfl (by decide) (plain_append hlabel hchevron)) (plain_element rfl (by decide) hu))

theorem A_notMem_phrase (p : Phrase) : 'A' ∉ p.text := p.notMem (by decide) (by decide)

theorem A_notMem_html (titles : List Phrase) (p : Phrase) : 'A' ∉ (nest titles p).html := by
  induction titles with
  | nil => simpa [nest, Forest.html] using A_notMem_phrase p
  | cons title titles ih =>
    have haccordion := A_notMem_accordion (A_notMem_phrase title) (notMem_echo (by decide) ih)
    simpa [nest, Forest.html, Box.html] using haccordion

/-- The page of accordions inside each other has a single block. Tags are left on it as text, and up to line breaks it
is the direct rendering, exactly as there is no accordion inside the outermost one. -/
theorem page_nested_accordions (r : Renderer) (title : Phrase) (titles : List Phrase) (p : Phrase) :
    let f := nest (title :: titles) p
    let page := r.echoing.page f.write
    page.blocks = [outermost title titles p] ∧
      page.html = echo ("\n\n" ++ outermost title titles p ++ "\n\n" ++ closings titles.length) ∧
      (squash page.html = squash f.page ↔ titles = []) ∧
      (Element.startTag "Accordion" <:+: page.html ↔ titles ≠ []) ∧
      (Element.endTag "Accordion" <:+: page.html ↔ titles ≠ []) := by
  intro f page
  obtain ⟨hblocks, hhtml⟩ := page_nest r title titles p
  have hpage : f.page = echo f.html := rfl
  have hA : 'A' ∉ f.page := notMem_echo (by decide) (A_notMem_html (title :: titles) p)
  have hclear : squash page.html = squash f.page → 'A' ∉ page.html := by
    intro hsquash hmem
    have hmem : 'A' ∈ squash page.html := List.mem_filter.2 ⟨hmem, by decide⟩
    rw [hsquash] at hmem
    exact hA (List.mem_of_mem_filter hmem)
  refine ⟨hblocks, hhtml, ?_⟩
  change page.html = _ at hhtml
  cases titles with
  | nil =>
    have hdirect : f.page = echo (outermost title [] p) := by
      rw [hpage]
      simp [f, nest, Forest.html, Box.html, outermost, openings]
    have hsquash : squash page.html = squash f.page := by
      rw [hhtml, hdirect]
      simp [echo, squash, closings]
    have hstart : ¬ Element.startTag "Accordion" <:+: page.html := fun h => hclear hsquash (h.subset (by decide))
    have hend : ¬ Element.endTag "Accordion" <:+: page.html := fun h => hclear hsquash (h.subset (by decide))
    exact ⟨iff_of_true hsquash rfl, iff_of_false hstart (by simp), iff_of_false hend (by simp)⟩
  | cons inner titles =>
    have hstart : Element.startTag "Accordion" <:+: page.html := by
      have hopen : Element.startTag "Accordion" <:+: openings (inner :: titles) p := by
        simp only [openings, List.flatMap_cons, titleLine, List.append_assoc]
        exact (List.prefix_append _ _).isInfix
      have hblock := hopen.trans (openings_infix_outermost title (inner :: titles) p)
      rw [hhtml]
      exact hblock.trans ⟨"[[md:\n\n", "\n\n" ++ (closings (inner :: titles).length ++ "]]"), by simp [echo]⟩
    have hend : Element.endTag "Accordion" <:+: page.html := by
      have hclose : Element.endTag "Accordion" <:+: closings (inner :: titles).length :=
        ⟨['\n'], closings titles.length, by simp [closings]⟩
      rw [hhtml]
      exact hclose.trans ⟨"[[md:\n\n" ++ outermost title (inner :: titles) p ++ "\n\n", "]]", by simp [echo]⟩
    have hne : squash page.html ≠ squash f.page := fun hsquash => hclear hsquash (hend.subset (by decide))
    exact ⟨iff_of_false hne (by simp), iff_of_true hstart (by simp), iff_of_true hend (by simp)⟩

/-- Two accordions inside each other: the inner one is not rendered, and its start tag and an end tag stay as text. -/
theorem accordion_in_accordion_unrendered :
    let a : Phrase := ⟨"a", by decide, by decide, by decide⟩
    let b : Phrase := ⟨"b", by decide, by decide, by decide⟩
    let x : Phrase := ⟨"x", by decide, by decide, by decide⟩
    let f : Forest := nest [a, b] x
    let page := (Renderer.ofSettings {} id).echoing.page f.write
    f.write = "<Accordion title=\"a\">\n<Accordion title=\"b\">\nx\n</Accordion>\n</Accordion>".toList ∧
      page.blocks.length = 1 ∧ squash page.html ≠ squash f.page ∧
      Element.startTag "Accordion" <:+: page.html ∧ Element.endTag "Accordion" <:+: page.html := by
  decide +kernel

end

end DocPages.Markup
