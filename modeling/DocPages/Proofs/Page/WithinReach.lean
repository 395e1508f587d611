import DocPages.Proofs.Page.Items
import DocPages.Proofs.Page.Listings
import DocPages.Proofs.Page.Requests

/-!
# Pages on which no block is lost

Once its code is on the shelf, a tidy text is handed on by all passes with the tokens in it, at any depth. So each block of
a page is within reach of the text that comes out. In a text that is not tidy a token may stand where it is given up, such
as between the items of a group or in a payload, which it breaks.
-/

namespace DocPages

open DocPages.Shelf (token)

/-! ## Media addresses -/

section
variable {n : Nat} {s t url : Text}

theorem token_strip (h : token n <:+: t) : token n <:+: Text.strip t := by
  obtain ⟨a, b, ha, hb, ht⟩ := Text.exists_trim isBlank t
  have hfree {s : Text} (hs : ∀ c ∈ s, isBlank c = true) : ¬ token n <:+: s :=
    not_token_of_notMem fun hmem => absurd (hs _ hmem) (by decide)
  rw [ht] at h
  have hback := (token_infix_cut h (.inl fun c hc => isAlphanum_of_isBlank (ha c (List.mem_of_mem_getLast? hc)))).resolve_left
    (hfree ha)
  exact (token_infix_cut hback (.inr fun c hc => isAlphanum_of_isBlank (hb c (List.mem_of_mem_head? hc)))).resolve_right
    (hfree hb)

theorem token_mapFound {α : Type} {read : Reader Char α} {write : α → Text} (htakes : Takes read)
    (htoken : ∀ t, Refused read (token n) t)
    (hfound : ∀ u t a, read (u ++ t) = some (a, t) →
      (∀ c ∈ u.getLast?, c.isAlphanum = false) ∧ (token n <:+: u → token n <:+: write a))
    (h : token n <:+: s) : token n <:+: Text.mapFound read write s := by
  induction s using htakes.induction with
  | nil => exact h
  | kept c s hr ih =>
    rcases List.infix_cons_iff.1 h with ⟨b, hb⟩ | hback
    · rw [← hb, Text.mapFound_append (htoken b)]
      exact (List.prefix_append _ _).isInfix
    · rw [Text.mapFound_kept hr]
      exact (ih hback).trans (List.suffix_cons _ _).isInfix
  | found u t a hu hr ih =>
    obtain ⟨hlast, hwrite⟩ := hfound u t a hr
    rw [Text.mapFound_front hu hr]
    rcases token_infix_cut h (.inl hlast) with h | h
    · exact (hwrite h).trans (List.prefix_append _ _).isInfix
    · exact (ih h).trans (List.suffix_append _ _).isInfix

namespace Media

variable {root : Text} {resolve : Text → Text} {r : Reference}

/-- A token in a reference stands in front of its address, in it or behind it. -/
theorem Reference.ReadOff.token {u : Text} (hresolve : token n <:+: r.url → token n <:+: resolve r.url)
    (h : r.ReadOff (u ++ t) t) : (∀ c ∈ u.getLast?, c.isAlphanum = false) ∧
      (token n <:+: u → token n <:+: r.before ++ resolve r.url ++ r.after) := by
  obtain ⟨htext, ⟨b, c, hb, hc⟩, ⟨d, a, ha, hd⟩, ⟨a', e, ha', he⟩⟩ := h
  obtain rfl : u = r.before ++ (r.url ++ r.after) := List.append_cancel_right (htext.trans (by simp))
  refine ⟨by simp [ha', he], fun h => ?_⟩
  rcases token_infix_cut h (.inl (by simp [hb, hc])) with h | h
  · exact h.trans ⟨[], resolve r.url ++ r.after, by simp⟩
  · rcases token_infix_cut h (.inr (by simp [ha, hd])) with h | h
    · exact (hresolve h).trans ⟨r.before, r.after, rfl⟩
    · exact h.trans (List.suffix_append _ _).isInfix

theorem token_resolveAll (hresolve : ∀ url, token n <:+: url → token n <:+: resolve url) (h : token n <:+: t) :
    token n <:+: resolveAll root resolve t := by
  have hclear {c : Char} (hc : c.isAlphanum = false) (part t : Text) : Text.Clear (c :: part) (token n) t :=
    Text.clear_of_notMem (notMem_token hc n) t
  have himage (t : Text) : Refused (image? root) (token n) t :=
    Text.refused_of_clear (Markup.begins_image root) (hclear (by decide) ['['] t)
  have htag (t : Text) : Refused (imageTag? root) (token n) t :=
    Text.refused_of_clear (Markup.begins_imageTag root) (hclear (by decide) "img" t)
  refine token_mapFound takes_imageTag htag (fun u t r hr => (imageTag?_eq_some hr).token (hresolve r.url)) ?_
  exact token_mapFound takes_image himage (fun u t r hr => (image?_eq_some hr).token (hresolve r.url)) h

end Media

/-- The address of a media path holds the tokens of the path. -/
theorem token_resolveMedia (cmsUrl mediaRoot : Text) (h : token n <:+: url) :
    token n <:+: resolveMedia cmsUrl mediaRoot url := by
  have hstrip := token_strip h
  have hC : 'C' ∈ Text.strip url := hstrip.subset (by rw [Shelf.token_eq]; simp)
  have hc : 'c' ∈ Text.lower (Text.strip url) := List.mem_flatMap.2 ⟨'C', hC, by decide⟩
  have hword : ¬ ((Text.strip url).isEmpty ∨ Text.lower (Text.strip url) = "null" ∨
      Text.lower (Text.strip url) = "undefined") := by
    rintro (hnil | hword | hword)
    · rw [List.isEmpty_iff.1 hnil] at hC
      cases hC
    · rw [hword] at hc
      exact absurd hc (by decide)
    · rw [hword] at hc
      exact absurd hc (by decide)
  simp only [resolveMedia]
  rw [if_neg hword]
  split
  · exact hstrip.trans (List.suffix_append _ _).isInfix
  · exact hstrip

end

/-! ## Regions -/

namespace Renderer

/-- Puts the code of a region on the shelf. -/
def shelveCode (r : Renderer) (t : Text) : StateM Work Text := do
  let t ← shelveAll Code.titled? (fun b => return b.html) t
  Code.replaceFenced (fun block => Work.shelve (r.engine block)) t

/-- Replaces the components of a region, where `inner` renders what they hold, and writes what is left. -/
def finish (r : Renderer) (inner : Text → StateM Work Text) (t : Text) : StateM Work Text := do
  let t ← (r.passes inner).foldlM (fun t pass => pass t) t
  return r.engine (Media.resolveAll r.mediaRoot r.resolve t)

theorem renderWithin_succ (r : Renderer) (depth : Nat) (t : Text) :
    renderWithin r (depth + 1) t =
      (do r.finish (fun t => renderWithin r depth (Text.strip t)) (← r.shelveCode (Artifact.strip t))) := by
  rw [renderWithin, placeElements_eq]
  simp only [shelveCode, finish, bind_assoc]

variable {r : Renderer} {inner : Text → StateM Work Text}

theorem carries_passes (hinner : CarriesInside inner) : ∀ pass ∈ r.passes inner, Carries pass := by
  have hcard : Lex.Ungrouped "Card" := ⟨'C', _, rfl, by decide⟩
  have hgroup : Lex.Ungrouped "CardGroup" := ⟨'C', _, rfl, by decide⟩
  have hendpoint : Lex.Ungrouped "APIEndpoint" := ⟨'A', _, rfl, by decide⟩
  have htable : Lex.Ungrouped "ParameterTable" := ⟨'P', _, rfl, by decide⟩
  have haccordion : Lex.Ungrouped "Accordion" := ⟨'A', _, rfl, by decide⟩
  have hmockup : Lex.Ungrouped "BrowserMockup" := ⟨'B', _, rfl, by decide⟩
  unfold passes
  simp only [List.forall_mem_cons]
  refine ⟨.callout hinner, ?_, .tabs hinner, .steps hinner, ?_, ?_, ?_, ?_, .placeComponents r.maxDepth, .childGrid, ?_, ?_⟩
  · exact .titled hinner haccordion (by decide) (by decide) (fun _ y _ => Element.holds_accordion_title y)
      fun l _ _ => Element.holds_accordion l
  · exact .described hinner hgroup (by decide) (by decide) fun as _ _ => Element.holds_cardGroup as
  · exact .described hinner hcard (by decide) (by decide) fun as _ _ => Element.holds_card as
  · exact .described hinner hendpoint (by decide) (by decide) fun as _ _ => Element.holds_endpoint as
  · exact .plain hinner htable (by decide) (by decide) fun _ _ => Element.holds_parameterTable
  · exact .described hinner hmockup (by decide) (by decide) fun as _ _ => Element.holds_browserMockup as
  · simp

section
variable (hengine : r.engine = echo)
include hengine

theorem keeps_shelveCode (t : Text) :
    Keeps (fun n => Lined true n t) (fun x n => Lined true n x) (fun x => Tidy t → Tidy x) (r.shelveCode t) := by
  rw [shelveCode, hengine]
  refine (Keeps.titledCode t).bind fun u hu => ?_
  exact (Keeps.replaceFenced u).mono (fun _ => id) (fun _ _ _ => id) fun x hx htidy => hx (hu htidy)

variable (hresolve : ∀ n url, token n <:+: url → token n <:+: r.resolve url)
include hresolve

theorem carriesInside_finish (hinner : CarriesInside inner) : CarriesInside (r.finish inner) := by
  intro s hs
  have hpasses : Carries fun t => (r.passes inner).foldlM (fun t pass => pass t) t :=
    .foldlM (carries_passes hinner)
  refine (hpasses s hs).bind fun t _ => .pure (fun n hn => ?_) trivial
  rw [hengine]
  exact (Media.token_resolveAll (hresolve n) hn.isInfix).trans ⟨"[[md:", "]]", rfl⟩

/-- A region at any depth hands its tokens on. -/
theorem carriesInside_renderWithin (depth : Nat) : CarriesInside fun t => renderWithin r depth (Text.strip t) := by
  induction depth with
  | zero =>
    intro s hs
    refine .pure (fun n hn => ?_) trivial
    rw [hengine]
    exact hn.strip.isInfix.trans ⟨"[[md:", "]]", rfl⟩
  | succ depth ih =>
    intro s hs
    obtain ⟨htidy, hlined⟩ := hs.strip.artifact_strip
    simp only [renderWithin_succ]
    refine ((keeps_shelveCode hengine _).mono (fun n hn => hlined n hn.strip) (fun _ _ _ => id) fun _ => id).bind
      fun t ht => ?_
    exact carriesInside_finish hengine hresolve ih t (ht htidy)

end

/-! ## Pages -/

/-- The body of a document with its code on the shelf, before components are looked for. -/
def uncoded (r : Renderer) (content : Text) : Text :=
  ((r.shelveCode (Artifact.strip (FrontMatter.split content).2)).run Work.fresh).1

/-- The text of a page before the blocks are put back. -/
def unrestored (r : Renderer) (content : Text) : Text := ((r.render (FrontMatter.split content).2).run Work.fresh).1

theorem reached_of_tidy {r : Renderer} (hengine : r.engine = echo)
    (hresolve : ∀ n url, token n <:+: url → token n <:+: r.resolve url) {content : Text} (h : Tidy (r.uncoded content)) :
    ∀ n < (r.page content).blocks.length,
      Reached (fun m => token m <:+: r.unrestored content) (r.page content).blocks n := by
  intro n hn
  cases hempty : content.isEmpty with
  | true => simp [page, hempty] at hn
  | false =>
    rw [(page_of_not_isEmpty hempty).1] at hn ⊢
    unfold uncoded at h
    unfold unrestored
    generalize (FrontMatter.split content).2 = body at h hn ⊢
    rw [render, renderWithin_succ, Work.run_bind] at hn ⊢
    obtain ⟨hcode, -⟩ := keeps_shelveCode hengine (Artifact.strip body) Work.fresh
    have hinner := carriesInside_renderWithin hengine hresolve body.length
    obtain ⟨hrest, -⟩ := carriesInside_finish hengine hresolve hinner _ h _
    exact (hcode.trans hrest).new n (Nat.zero_le n) hn

end Renderer

/-- If the tags of a document hold no tokens and groups hold nothing but items once its code is on the shelf, each block
is within reach of the text that comes out. -/
theorem blocks_reached (s : Settings) (content : Text) (h : Tidy ((Renderer.ofSettings s echo).uncoded content)) :
    let r := Renderer.ofSettings s echo
    ∀ n < (r.page content).blocks.length,
      Reached (fun m => token m <:+: r.unrestored content) (r.page content).blocks n :=
  Renderer.reached_of_tidy rfl (fun _ _ => token_resolveMedia s.cmsUrl s.mediaRoot) h

/-- Code with a bracket in a tab, a callout in a card and parameters: all five blocks are within reach. -/
theorem blocks_reached_tabs :
    let content : Text := "<Tabs>\n<Tab title=\"a\">\n\x60\x60\x60js\nx < y\n\x60\x60\x60\n</Tab>\n</Tabs>\n\n<Card>\n:::tip\nz\n:::\n</Card>\n\n" ++
      "<ApiParams parameters=\x7b[\x7b\"name\": \"id\"\x7d]\x7d />"
    let r := Renderer.ofSettings {} echo
    Tidy (r.uncoded content) ∧ (r.page content).blocks.length = 5 ∧
      ∀ n < 5, Reached (fun m => token m <:+: r.unrestored content) (r.page content).blocks n := by
  intro content r
  have htidy : Tidy (r.uncoded content) := by decide +kernel
  have hlength : (r.page content).blocks.length = 5 := by decide +kernel
  exact ⟨htidy, hlength, fun n hn => blocks_reached {} content htidy n (hlength ▸ hn)⟩

/-- A card in a description breaks the payload around it, and is lost with it. -/
theorem block_lost_in_payload :
    let content : Text :=
      "<ApiParams parameters=\x7b[\x7b\"name\": \"id\", \"description\": \"see <Card>x</Card>\"\x7d]\x7d />"
    let r := Renderer.ofSettings {} echo
    (r.page content).blocks.length = 2 ∧
      ¬ Reached (fun m => token m <:+: r.unrestored content) (r.page content).blocks 0 := by
  intro content r
  have htext : (r.unrestored content).includes (token 0) = false := by decide +kernel
  have hblocks : (r.page content).blocks.all (fun b => !b.includes (token 0)) = true := by decide +kernel
  refine ⟨by decide +kernel, Reached.not_of_no_token (fun hi => ?_) fun b hb hi => ?_⟩
  · rw [Text.includes_iff.2 hi] at htext
    cases htext
  · have hb := List.all_eq_true.1 hblocks b hb
    rw [Text.includes_iff.2 hi] at hb
    cases hb

end DocPages
