import DocPages.Proofs.FrontMatter.LineEnds
import DocPages.Proofs.Page.Leftover
import DocPages.Proofs.Page.Twin

/-!
# Documents with line ends of two characters

The content store keeps documents as they were written, with line ends of one character or of two. Front matter is
read alike from both. The page is the same up to line breaks if the body is calm; a callout, a fence or an authoring
artifact is only recognised at line ends of one character.
-/

namespace DocPages

/-! ## Restoring -/

namespace Shelf

theorem unbroken_token (n : Nat) : Unbroken (token n) :=
  ⟨fun h => ne_of_mem_token h (by decide) rfl, fun h => ne_of_mem_token h (by decide) rfl⟩

theorem breaks_putBack (n : Nat) {block block' s t : Text} (hblock : Breaks block block') (h : Breaks s t) :
    Breaks (putBack n block s) (putBack n block' t) := by
  have htoken := unbroken_token n
  have hparagraph : Unbroken ("<p>" ++ token n ++ "</p>") := by
    have hends : Unbroken "<p>" ∧ Unbroken "</p>" := by decide
    simp only [Unbroken, List.mem_append, not_or]
    exact ⟨⟨⟨hends.1.1, htoken.1⟩, hends.2.1⟩, ⟨hends.1.2, htoken.2⟩, hends.2.2⟩
  have hne : ("<p>" ++ token n ++ "</p>" : Text) ≠ [] := fun he =>
    token_ne_nil n (List.append_eq_nil_iff.1 (List.append_eq_nil_iff.1 he).1).2
  exact (h.replace hne hparagraph hblock).replace (token_ne_nil n) htoken hblock

theorem breaks_restore {bs bs' : List Text} (hblocks : List.Forall₂ Breaks bs bs') {s t : Text} (h : Breaks s t) :
    Breaks (restore ⟨bs⟩ s) (restore ⟨bs'⟩ t) := by
  have hfrom (n : Nat) : Breaks ((bs.zipIdx n).foldr (fun p t => putBack p.2 p.1 t) s)
      ((bs'.zipIdx n).foldr (fun p t => putBack p.2 p.1 t) t) := by
    induction hblocks generalizing n with
    | nil => exact h
    | cons hb _ ih => exact breaks_putBack n hb (ih (n + 1))
  exact hfrom 0

theorem leftovers_eq {bs bs' : List Text} (hsize : bs.length = bs'.length) {s t : Text} (h : Breaks s t) :
    leftovers ⟨bs⟩ s = leftovers ⟨bs'⟩ t := by
  have hincludes : ∀ part ∈ (List.range bs'.length).map token, s.includes part = t.includes part := by
    intro part hpart
    obtain ⟨n, -, rfl⟩ := List.mem_map.1 hpart
    rw [Bool.eq_iff_iff, Text.includes_iff, Text.includes_iff, h.infix_iff (unbroken_token n)]
  rw [leftovers, leftovers, size, size, hsize]
  exact List.filter_congr hincludes

end Shelf

/-! ## Pages -/

/-- Pages that differ in their breaks. -/
structure Page.Restyled (p q : Page) : Prop where
  html : Breaks p.html q.html
  blocks : List.Forall₂ Breaks p.blocks q.blocks
  issues : p.issues = q.issues

namespace Renderer

variable {r : Renderer} {c : Text}

/-- The page of a rendered body. -/
theorem page_of_render {fm : FrontMatter} {body text : Text} {w : Work} (hc : c.isEmpty = false)
    (hsplit : FrontMatter.split c = (fm, body)) (hrender : (r.render body).run Work.fresh = (text, w)) :
    r.page c = ⟨(endpointHeader fm).write ++ w.shelf.restore text, w.shelf.blocks,
      w.issues ++ (w.shelf.leftovers (w.shelf.restore text)).map Issue.leftover⟩ := by
  rw [page, if_neg (by simp [hc]), hsplit]
  dsimp only
  rw [hrender]

theorem restyled_page (hr : r.Steady) {c' : Text} (h : Breaks c c') {fm : FrontMatter} {body body' : Text}
    (hsplit : FrontMatter.split c = (fm, body)) (hsplit' : FrontMatter.split c' = (fm, body'))
    (hbody : Breaks body body') (hcalm : Calm body) : (r.page c).Restyled (r.page c') := by
  cases hc : c.isEmpty with
  | true =>
    rw [page, if_pos hc, page, if_pos (h.isEmpty ▸ hc)]
    exact ⟨.nil, .nil, rfl⟩
  | false =>
    obtain ⟨htext, hwork⟩ := twin_render hr hbody hcalm Work.fresh Work.fresh .fresh
    cases hrender : (r.render body).run Work.fresh with
    | mk text w =>
      cases hrender' : (r.render body').run Work.fresh with
      | mk text' w' =>
        rw [hrender, hrender'] at htext hwork
        have hhtml := Shelf.breaks_restore hwork.blocks htext
        have hleft := Shelf.leftovers_eq hwork.blocks.length_eq hhtml
        rw [page_of_render hc hsplit hrender, page_of_render (h.isEmpty ▸ hc) hsplit' hrender']
        exact ⟨(Breaks.refl _).append hhtml, hwork.blocks, congrArg₂ (· ++ ·.map Issue.leftover) hwork.issues hleft⟩

theorem steady_echoing (s : Settings) (engine : Text → Text) (hroot : Unbroken s.mediaRoot) :
    (ofSettings s engine).echoing.Steady where
  engine _ _ h := ((Breaks.refl _).append h).append (.refl _)
  resolve _ _ h := breaks_resolveMedia s.cmsUrl hroot h
  mediaRoot := hroot

end Renderer

/-- With an engine that echoes, a document with a calm body has as many blocks and the same issues in both styles of
line ends. -/
theorem page_of_either_line_end (s : Settings) (hroot : Unbroken s.mediaRoot) (c : Text) (hc : '\r' ∉ c)
    (hcalm : Calm (FrontMatter.split c).2) :
    let r := (Renderer.ofSettings s id).echoing
    (r.page (crlf c)).blocks.length = (r.page c).blocks.length ∧ (r.page (crlf c)).issues = (r.page c).issues := by
  have hpages := Renderer.restyled_page (Renderer.steady_echoing s id hroot) (breaks_crlf c) rfl
    (FrontMatter.split_crlf hc) (breaks_crlf _) hcalm
  exact ⟨hpages.blocks.length_eq.symm, hpages.issues.symm⟩

/-- A document with front matter, a group of tabs and a payload that cannot be read. -/
theorem page_of_tabs_of_either_line_end :
    let c : Text := "---\nmethod: GET\npath: /a\n---\n<Tabs>\n<Tab title=\"one\">\ntext\n</Tab>\n</Tabs>\n<ApiRequest requestBody=\x7boops\x7d />"
    let r := (Renderer.ofSettings {} id).echoing
    ((r.page (crlf c)).blocks.length = (r.page c).blocks.length ∧ (r.page (crlf c)).issues = (r.page c).issues) ∧
      (r.page c).blocks.length = 2 ∧ (r.page c).issues.length = 1 :=
  ⟨page_of_either_line_end {} (by decide) _ (by decide +kernel) (by decide +kernel), by decide +kernel⟩

/-- A callout ends its first line with a line feed alone, so it is none when its lines end with two characters. -/
theorem callout_lost_to_returns :
    let c : Text := ":::info\nx\n:::"
    let r := (Renderer.ofSettings {} id).echoing
    '\r' ∉ c ∧ (r.page c).blocks.length = 1 ∧ (r.page (crlf c)).blocks = [] := by
  decide +kernel

end DocPages
