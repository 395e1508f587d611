import DocPages.Proofs.Page.Shelved

/-!
# Tokens on a page

A page is free of tokens exactly if its header is and if every text that comes to light while blocks are put
back holds only tokens of blocks that are still to be put back.
-/

namespace DocPages

open DocPages.Shelf (Framed token)

/-- An engine that shows where it has been called. -/
def echo (t : Text) : Text := "[[md:" ++ t ++ "]]"

def Renderer.echoing (r : Renderer) : Renderer := { r with engine := echo }

theorem framed_echo (t : Text) : Framed (echo t) where
  opened := .inl ⟨"[md:" ++ t ++ "]]", rfl⟩
  closed := .inl ⟨"[[md:" ++ t ++ "]", (List.append_assoc _ [']'] [']']).symm⟩

/-- The header of a page ends with a line of its own. -/
theorem endpointHeader_ends (fm : FrontMatter) :
    (endpointHeader fm).write = [] ∨ ∃ u, (endpointHeader fm).write = u ++ ['\n'] := by
  unfold endpointHeader
  split
  · exact .inr ⟨_, rfl⟩
  · exact .inl rfl

/-- No token crosses the end of the header. -/
theorem token_infix_header_append (fm : FrontMatter) (t : Text) (n : Nat) :
    token n <:+: (endpointHeader fm).write ++ t ↔
      token n <:+: (endpointHeader fm).write ∨ token n <:+: t := by
  have hbreak : Text.Break (fun k => k = token n) (endpointHeader fm).write t := by
    intro p q hpq hp hq hsuffix
    rcases endpointHeader_ends fm with hheader | ⟨u, hheader⟩
    · rw [hheader] at hsuffix
      exact absurd (List.suffix_nil.1 hsuffix) hp
    · rw [hheader] at hsuffix
      have hbreak : '\n' ∈ p := by
        rcases List.suffix_concat_iff.1 hsuffix with rfl | ⟨v, rfl, -⟩
        · exact absurd rfl hp
        · simp
      have htoken : '\n' ∈ token n := hpq ▸ List.mem_append_left q hbreak
      exact absurd rfl (Shelf.ne_of_mem_token htoken (by decide))
  exact hbreak.infix_iff rfl

/-- A text that does not begin with three hyphens has no front matter. -/
theorem FrontMatter.split_of_no_fence {t : Text} (h : ¬ ("---" : Text) <+: t) : split t = ([], t) := by
  have hfence : Text.after? "---" t = none := Text.after?_eq_none_iff.2 h
  rw [split, splitDocument?, fence?, hfence]
  rfl

theorem FrontMatter.split_of_head {t : Text} (h : ∀ c ∈ t.head?, c ≠ '-') : split t = ([], t) := by
  refine split_of_no_fence fun ⟨u, hu⟩ => h '-' ?_ rfl
  rw [← hu]
  rfl

theorem Renderer.page_of_isEmpty {r : Renderer} {content : Text} (hc : content.isEmpty = true) :
    (r.page content).blocks = [] := by
  rw [Renderer.page, if_pos hc]

/-- A page is its header and what the blocks make of the rendered body. -/
theorem Renderer.page_of_not_isEmpty {r : Renderer} {content : Text} (hc : content.isEmpty = false) :
    (r.page content).blocks = ((r.render (FrontMatter.split content).2).run Work.fresh).2.shelf.blocks ∧
      (r.page content).html = (endpointHeader (FrontMatter.split content).1).write ++
        Shelf.restore ⟨(r.page content).blocks⟩
          ((r.render (FrontMatter.split content).2).run Work.fresh).1 := by
  cases hsplit : FrontMatter.split content with
  | mk fm body =>
    cases hrender : (r.render body).run Work.fresh with
    | mk text w =>
      have hrun : r.render body Work.fresh = (text, w) := hrender
      rw [Renderer.page, if_neg (by simp [hc]), hsplit]
      simp only [StateT.run]
      rw [hrun]
      exact ⟨rfl, rfl⟩

theorem Renderer.framed_of_mem_page {r : Renderer} (hengine : ∀ t, Framed (r.engine t)) {content : Text}
    (hc : content.isEmpty = false) : ∀ b ∈ (r.page content).blocks, Framed b := by
  rw [(page_of_not_isEmpty hc).1]
  exact framed_of_mem_blocks hengine (FrontMatter.split content).2

/-- If the engine frames what it gives, a token is left on a page exactly if the header holds it or a text
comes to light that holds it, apart from the places of blocks that are still to be put back. -/
theorem token_infix_page_iff {r : Renderer} (hengine : ∀ t, Framed (r.engine t)) {content : Text}
    (hc : content.isEmpty = false) (n : Nat) :
    token n <:+: (r.page content).html ↔
      token n <:+: (endpointHeader (FrontMatter.split content).1).write ∨
        ∃ rest u, Text.Surfaces (Shelf.changes (r.page content).blocks)
            ((r.render (FrontMatter.split content).2).run Work.fresh).1 rest u ∧
          token n <:+: Text.strikeAll rest u := by
  rw [(Renderer.page_of_not_isEmpty hc).2, token_infix_header_append,
    Shelf.token_infix_restore_iff (Renderer.framed_of_mem_page hengine hc)]

/-- If each block of a page holds only tokens of older ones, and the header none, the page holds none. -/
theorem page_tokenless_of_older {r : Renderer} (hengine : ∀ t, Framed (r.engine t)) {content : Text}
    (hheader : ∀ n, ¬ token n <:+: (endpointHeader (FrontMatter.split content).1).write)
    (holder : ∀ i b, (r.page content).blocks[i]? = some b →
      ∀ n, i ≤ n → n < (r.page content).blocks.length → ¬ token n <:+: b)
    {n : Nat} (hn : n < (r.page content).blocks.length) : ¬ token n <:+: (r.page content).html := by
  cases hc : content.isEmpty with
  | true =>
    rw [Renderer.page_of_isEmpty hc] at hn
    exact absurd hn (by simp)
  | false =>
    rw [(Renderer.page_of_not_isEmpty hc).2, token_infix_header_append]
    have hframed := Renderer.framed_of_mem_page hengine hc
    exact not_or.2 ⟨hheader n, Shelf.not_token_infix_restore hframed holder hn _⟩

/-- With an engine that echoes, a page holds no token of its blocks exactly if its header holds none and every
text that comes to light, be it that of the engine or a block, holds only tokens of blocks that are still to
be put back. -/
theorem page_tokenless_iff (r : Renderer) (content : Text) :
    let page := r.echoing.page content
    let parts := FrontMatter.split content
    let text := ((r.echoing.render parts.2).run Work.fresh).1
    (∀ n < page.blocks.length, ¬ token n <:+: page.html) ↔
      ∀ n < page.blocks.length, ¬ token n <:+: (endpointHeader parts.1).write ∧
        ∀ rest u, Text.Surfaces (Shelf.changes page.blocks) text rest u →
          ¬ token n <:+: Text.strikeAll rest u := by
  refine forall₂_congr fun n hn => ?_
  cases hc : content.isEmpty with
  | true =>
    rw [Renderer.page_of_isEmpty hc] at hn
    exact absurd hn (by simp)
  | false =>
    rw [token_infix_page_iff (r := r.echoing) framed_echo hc, not_or]
    simp only [not_exists, not_and]

/-- A line of code that looks like the token of the next block: that block is put back before the line comes
to light, so the line stays as it is. -/
theorem page_keeps_author_token :
    let page := (Renderer.ofSettings {} id).echoing.page
      "\x60\x60\x60\nDOCFORGESTASH1END\n\x60\x60\x60\n\n\x60\x60\x60\nx\n\x60\x60\x60"
    page.blocks.length = 2 ∧ token 1 <:+: page.html := by
  decide +kernel

end DocPages
