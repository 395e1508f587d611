import DocPages.Proofs.Page.First
import DocPages.Proofs.Page.Pass

/-!
# A page of code

A document that is one fenced block of code. Before fences are looked for, authoring artifacts are taken out and
blocks of code with a title are replaced, wherever they stand; and the closing fence that is looked for first is the
longest one that the opening line has room for. So the block is handed to the engine as it stands exactly if there
is no artifact in it, no block with a title and no line that closes a longer fence.
-/

namespace DocPages

open DocPages.Markup (Made)
open DocPages.Shelf (token place)

/-- A fenced block of code at the left margin, of which no line but the last closes the fence. -/
structure Fence where
  mark : Char
  size : Nat
  info : Text
  body : List Text
  trail : Text
  isMark : mark = '\x60' ∨ mark = '~'
  three : 3 ≤ size
  plain : ∀ c ∈ info, c ≠ '\x60' ∧ c ≠ '"' ∧ c ≠ '\n'
  unbroken : ∀ line ∈ body, '\n' ∉ line
  inside : ∀ line ∈ body, ¬ Code.Closes mark size line
  blank : ∀ c ∈ trail, isIndent c = true

namespace Fence

def opening (f : Fence) : Text := List.replicate f.size f.mark ++ f.info

def closing (f : Fence) : Text := List.replicate f.size f.mark ++ f.trail

def lines (f : Fence) : List Text := f.opening :: (f.body ++ [f.closing])

def text (f : Fence) : Text := Text.join "\n" f.lines

/-- Nothing in the block is taken for something else before the fence is found. -/
structure Literal (f : Fence) : Prop where
  unmarked : found Artifact.mark? f.text = []
  filled : ∀ line ∈ f.body, Artifact.saysEmpty line = false
  untitled : found Code.titled? f.text = []
  longest : ∀ k, f.size < k → List.replicate k f.mark <+: f.opening → ∀ line ∈ f.body, ¬ Code.Closes f.mark k line

section
variable (f : Fence)

theorem exists_cons (rest : Text) : ∃ u, List.replicate f.size f.mark ++ rest = f.mark :: u := by
  obtain ⟨n, hn⟩ : ∃ n, f.size = n + 1 := ⟨f.size - 1, by have := f.three; omega⟩
  exact ⟨List.replicate n f.mark ++ rest, by rw [hn, List.replicate_succ, List.cons_append]⟩

theorem unbroken_lines : ∀ line ∈ f.lines, '\n' ∉ line := by
  have hmark : '\n' ≠ f.mark := by rcases f.isMark with h | h <;> rw [h] <;> decide
  have hfence : '\n' ∉ List.replicate f.size f.mark := fun h => hmark (List.eq_of_mem_replicate h)
  have hopening : '\n' ∉ f.opening := by
    simp only [opening, List.mem_append, not_or]
    exact ⟨hfence, fun h => (f.plain _ h).2.2 rfl⟩
  have hclosing : '\n' ∉ f.closing := by
    simp only [closing, List.mem_append, not_or]
    exact ⟨hfence, fun h => absurd (f.blank _ h) (by decide)⟩
  simp only [lines, List.forall_mem_cons, List.forall_mem_append]
  exact ⟨hopening, f.unbroken, hclosing, by simp⟩

theorem lines_text : Text.lines f.text = f.lines := Text.lines_join (by simp [lines]) f.unbroken_lines

theorem text_eq_cons : ∃ u, f.text = f.mark :: u := by
  obtain ⟨u, hu⟩ := f.exists_cons f.info
  obtain ⟨line, rest, hrest⟩ := List.exists_cons_of_ne_nil (l := f.body ++ [f.closing]) (by simp)
  refine ⟨u ++ ("\n" ++ Text.join "\n" (line :: rest)), ?_⟩
  rw [text, lines, hrest, Text.join_cons_cons, opening, hu, List.cons_append]

theorem split_text : FrontMatter.split f.text = ([], f.text) := by
  obtain ⟨u, hu⟩ := f.text_eq_cons
  refine FrontMatter.split_of_head fun c hc => ?_
  obtain rfl : f.mark = c := by simpa [hu] using hc
  rcases f.isMark with h | h <;> rw [h] <;> decide

/-! ### Artifacts -/

/-- A line that begins with a fence says nothing about a section. -/
theorem saysEmpty_fence (rest : Text) : Artifact.saysEmpty (List.replicate f.size f.mark ++ rest) = false := by
  obtain ⟨u, hu⟩ := f.exists_cons rest
  have hplain : isIndent f.mark = false ∧ Artifact.isEmphasis f.mark = false ∧ f.mark ≠ 'N' := by
    rcases f.isMark with h | h <;> rw [h] <;> decide
  have hwords : ∀ words ∈ Artifact.emptySections, words.head? = some 'N' := by decide
  rw [hu, Artifact.saysEmpty, List.dropWhile_cons_of_neg (by simp [hplain]), List.dropWhile_cons_of_neg (by simp [hplain]),
    List.any_eq_false]
  intro words hmem hsays
  obtain ⟨rest, hafter, -⟩ := (Option.any_eq_true _ _).1 hsays
  have hhead := congrArg List.head? (Text.eq_append_of_after? hafter)
  rw [List.head?_append, hwords words hmem] at hhead
  exact hplain.2.2 (Option.some.inj hhead)

theorem strip_text (hmarks : found Artifact.mark? f.text = []) (hsections : ∀ line ∈ f.body, Artifact.saysEmpty line = false) :
    Artifact.strip f.text = f.text := by
  refine Markup.strip_eq_self (found_eq_nil_iff.1 hmarks) ?_
  rw [lines_text]
  simp only [lines, List.forall_mem_cons, List.forall_mem_append]
  exact ⟨f.saysEmpty_fence f.info, hsections, f.saysEmpty_fence f.trail, by simp⟩

/-! ### The fence -/

theorem not_closes_closing {k : Nat} (hk : f.size < k) : ¬ Code.Closes f.mark k f.closing := by
  rintro ⟨blanks, -, h⟩
  have hmark : isIndent f.mark = false := by rcases f.isMark with h | h <;> rw [h] <;> decide
  obtain ⟨m, hm⟩ : ∃ m, k = f.size + (m + 1) := ⟨k - f.size - 1, by omega⟩
  rw [closing, hm, List.replicate_add, List.append_assoc] at h
  have htrail : f.trail = List.replicate (m + 1) f.mark ++ blanks := List.append_cancel_left h
  have hmem : f.mark ∈ f.trail := by rw [htrail, List.replicate_succ]; simp
  rw [f.blank _ hmem] at hmark
  cases hmark

theorem closes_closing : Code.Closes f.mark f.size f.closing := ⟨f.trail, f.blank, rfl⟩

theorem closeAt?_size : Code.closeAt? f.mark f.size (f.body ++ [f.closing]) = some (f.body ++ [f.closing], []) :=
  Code.closeAt?_append f.inside f.closes_closing

theorem size_le_run : f.size ≤ (f.opening.takeWhile (· == f.mark)).length :=
  Code.replicate_prefix_iff.1 (List.prefix_append _ _)

theorem fenced?_lines_eq : Code.fenced? f.lines =
    (Code.closeLongest? f.mark (f.opening.takeWhile (· == f.mark)).length (f.body ++ [f.closing])).map
      fun p => (f.opening :: p.1, p.2) := by
  obtain ⟨u, hu⟩ := f.exists_cons f.info
  rw [lines, opening, hu, Code.fenced?, if_pos f.isMark]

/-- The block is read as a whole exactly if no line of it closes a longer fence. -/
theorem fenced?_lines_iff : Code.fenced? f.lines = some (f.lines, []) ↔
    ∀ k, f.size < k → List.replicate k f.mark <+: f.opening → ∀ line ∈ f.body, ¬ Code.Closes f.mark k line := by
  rw [fenced?_lines_eq]
  constructor
  · intro h k hk hopening line hline hcloses
    obtain ⟨⟨block, rest⟩, hclosed, he⟩ := Option.map_eq_some_iff.1 h
    obtain ⟨hblock, rfl⟩ : block = f.body ++ [f.closing] ∧ rest = [] := by simpa [lines] using he
    obtain ⟨n, hn, -, hat, hlonger⟩ := Code.closeLongest?_eq_some hclosed
    obtain ⟨inside, last, -, hlast, hinside, -⟩ := Code.closeAt?_eq_some hat
    have hle : k ≤ n := by
      by_contra hlt
      have hnone := Code.closeAt?_eq_none_iff.1 (hlonger k (by omega) (Code.replicate_prefix_iff.1 hopening))
      exact hnone line (List.mem_append_left _ hline) hcloses
    obtain ⟨-, rfl⟩ : f.body = inside ∧ f.closing = last := by
      simpa using List.append_inj' (hblock.symm.trans hinside) rfl
    exact f.not_closes_closing (by omega) hlast
  · intro h
    rw [Code.closeLongest?_of_closeAt? f.three f.size_le_run f.closeAt?_size fun m hm hm' => ?_]
    · rfl
    · refine Code.closeAt?_eq_none_iff.2 fun line hline => ?_
      rcases List.mem_append.1 hline with hline | hline
      · exact h m hm (Code.replicate_prefix_iff.2 hm') line hline
      · exact List.mem_singleton.1 hline ▸ f.not_closes_closing hm

theorem exists_fenced : ∃ block rest, Code.fenced? f.lines = some (block, rest) := by
  cases hclosed : Code.closeLongest? f.mark (f.opening.takeWhile (· == f.mark)).length (f.body ++ [f.closing]) with
  | none =>
    have hnone := Code.closeLongest?_eq_none hclosed f.size f.three f.size_le_run
    rw [f.closeAt?_size] at hnone
    cases hnone
  | some p => exact ⟨f.opening :: p.1, p.2, by rw [fenced?_lines_eq, hclosed]; rfl⟩

end

end Fence

/-! ## The page -/

/-- A text that holds only tokens passes through the passes for components as it is. -/
theorem passes_of_made (r : Renderer) (inner : Text → StateM Work Text) {t : Text} (h : Made ∅ t) :
    ∀ pass ∈ r.passes inner, pass t = pure t := by
  have hkind (K : Markup.Kind) {α : Type} {read : Reader Char α} (hread : Begins read K.startMark)
      (write : α → StateM Work Text) : Text.mapFoundM read write t = pure t :=
    Text.mapFoundM_of_refused (Text.refused_of_clear hread (h.clear_startMark (by simp) []))
  unfold Renderer.passes
  simp only [List.forall_mem_cons]
  refine ⟨hkind .callout Markup.begins_callout _, hkind .accordion (Markup.begins_titled _) _,
    h.mapFoundM_foreign (Markup.begins_plain "Tabs") (by decide) _, hkind .steps (Markup.begins_plain _) _,
    hkind .cardGroup (Markup.begins_described _) _, hkind .card (Markup.begins_described _) _,
    h.mapFoundM_foreign (Markup.begins_described "APIEndpoint") (by decide) _,
    hkind .parameterTable (Markup.begins_plain _) _, h.placeComponents r.maxDepth,
    h.mapFoundM_foreign (Markup.begins_single "ChildGrid") (by decide) _,
    hkind .browserMockup (Markup.begins_described _) _, by simp⟩

namespace Fence

variable {f : Fence}

theorem Literal.render (h : f.Literal) (r : Renderer) :
    (r.echoing.render f.text).run Work.fresh = (echo (place 0), (Work.shelve (echo f.text) Work.fresh).2) := by
  have hstrip := f.strip_text h.unmarked h.filled
  have htitled : Renderer.shelveAll Code.titled? (fun b => return b.html) f.text = pure f.text :=
    Text.mapFoundM_of_refused (found_eq_nil_iff.1 h.untitled)
  have hfenced : Code.fenced? (f.lines ++ []) = some (f.lines, []) := by
    rw [List.append_nil]
    exact f.fenced?_lines_iff.2 h.longest
  have hlines : Code.replaceLines (fun block => Work.shelve (echo block)) (f.lines ++ []) = (do
      let part ← Work.shelve (echo f.text)
      return [part]) :=
    Code.replaceLines_front (by simp [lines]) hfenced
  have hquiet (inner : Text → StateM Work Text) :
      (r.echoing.passes inner).foldlM (fun t pass => pass t) (place 0) = pure (place 0) :=
    foldlM_of_pure (passes_of_made r.echoing inner (Made.ofPlace 0))
  rw [List.append_nil] at hlines
  have hengine : r.echoing.engine = echo := rfl
  rw [Renderer.render, Renderer.renderWithin, hstrip, Renderer.placeElements_eq, htitled, pure_bind,
    Code.replaceFenced_eq, lines_text, hengine, hlines]
  simp only [bind_assoc, pure_bind]
  rw [Work.run_bind]
  have hplace : ((Work.shelve (echo f.text)).run Work.fresh).1 = place 0 := rfl
  rw [hplace, show Text.join "\n" [place 0] = place 0 from rfl, hquiet, pure_bind, (Made.ofPlace (D := ∅) 0).resolveAll]
  rfl

/-- The block is put back between blank lines. -/
theorem restore_place (block : Text) :
    Shelf.restore ⟨[block]⟩ (echo (place 0)) = echo ("\n\n" ++ (block ++ "\n\n")) := by
  have hparagraph : ¬ ("<p>" ++ token 0 ++ "</p>" : Text) <:+: echo (place 0) := fun h => by
    have hmem : '<' ∈ echo (place 0) := h.subset (by simp)
    revert hmem
    decide
  have hclear : Text.Clear (token 0) "[[md:\n\n" (token 0 ++ "\n\n]]") := Text.clear_of_notMem (by decide) _
  have hreplace : Text.replace (token 0) block ("[[md:\n\n" ++ (token 0 ++ "\n\n]]")) =
      "[[md:\n\n" ++ (block ++ Text.replace (token 0) block "\n\n]]") :=
    Text.replace_found (Shelf.token_ne_nil 0) hclear
  have hrest : Text.replace (token 0) block "\n\n]]" = "\n\n]]" :=
    Text.replace_of_infix_free fun h => by
      have hmem : 'D' ∈ ("\n\n]]" : String).toList := h.subset (by simp [Shelf.token_eq])
      revert hmem
      decide
  rw [hrest] at hreplace
  have hecho : echo (place 0) = "[[md:\n\n" ++ (token 0 ++ "\n\n]]") := by decide
  have hputBack : Shelf.restore ⟨[block]⟩ (echo (place 0)) = Shelf.putBack 0 block (echo (place 0)) := rfl
  rw [hputBack, Shelf.putBack, Text.replace_of_infix_free hparagraph, hecho, hreplace]
  simp [echo]

theorem token_infix_restore (block : Text) :
    token 0 <:+: Shelf.restore ⟨[echo block]⟩ (echo (place 0)) ↔ token 0 <:+: block := by
  have hplain {c : Char} (hc : c.isAlphanum = false) : c ∉ token 0 := fun h => Shelf.ne_of_mem_token h hc rfl
  have hapart {t : Text} (ht : 'D' ∉ t) : ¬ token 0 <:+: t := fun h => ht (h.subset (by simp [Shelf.token_eq]))
  have hhtml : echo ("\n\n" ++ (echo block ++ "\n\n")) =
      "[[md:\n\n[[md" ++ ':' :: (block ++ ']' :: "]\n\n]]") := by simp [echo]
  rw [restore_place, hhtml, Text.infix_separated (hplain (by decide)), Text.infix_separated (hplain (by decide))]
  simp only [hapart (t := "[[md:\n\n[[md") (by decide), hapart (t := "]\n\n]]") (by decide), false_or, or_false]

theorem Literal.page (h : f.Literal) (r : Renderer) :
    (r.echoing.page f.text).blocks = [echo f.text] ∧
      ((r.echoing.page f.text).issues = [] ↔ ¬ token 0 <:+: f.text) := by
  have hrun : r.echoing.render f.text Work.fresh = (echo (place 0), (Work.shelve (echo f.text) Work.fresh).2) :=
    h.render r
  have hne : ¬ f.text.isEmpty = true := by
    obtain ⟨u, hu⟩ := f.text_eq_cons
    simp [hu]
  rw [Renderer.page, if_neg hne, split_text]
  simp only [StateT.run]
  rw [hrun]
  refine ⟨rfl, ?_⟩
  have hissues : ([] ++ (Shelf.leftovers ⟨[echo f.text]⟩ (Shelf.restore ⟨[echo f.text]⟩ (echo (place 0)))).map
      Issue.leftover) = [] ↔ ¬ token 0 <:+: f.text := by
    rw [List.nil_append, List.map_eq_nil_iff, Shelf.leftovers, List.filter_eq_nil_iff]
    simp [Shelf.size, Text.includes_iff, token_infix_restore]
  exact hissues

/-! ### What must hold of a block that is handed over -/

/-- The blocks of a page that is not empty are those of the passes over its text. -/
theorem blocks_text (r : Renderer) : ∃ inner, (∀ t, Built (inner t)) ∧
    (∀ n t, weight t ≤ n → First (Slight n) (inner t) fun _ => True) ∧ (r.echoing.page f.text).blocks =
      ((r.echoing.placeElements inner (Artifact.strip f.text)).run Work.fresh).2.shelf.blocks := by
  obtain ⟨u, hu⟩ := f.text_eq_cons
  refine ⟨fun t => r.echoing.renderWithin f.text.length (Text.strip t), fun t => Renderer.built_renderWithin _ _ _,
    fun n t ht => r.first_renderWithin _ ((weight_strip_le t).trans ht), ?_⟩
  rw [(Renderer.page_of_not_isEmpty (by simp [hu])).1, split_text, Renderer.render, Renderer.renderWithin]
  exact congrArg (fun w : Work => w.shelf.blocks) (Work.run_bind_pure _ _ _)

theorem echo_injective {s t : Text} (h : echo s = echo t) : s = t :=
  List.append_cancel_left (List.append_cancel_right h)

theorem head?_echo (t : Text) : (echo t).head? = some '[' := rfl

/-- If the block is handed over, no artifact has been taken out of it: with less letters it could not be the first
block. -/
theorem strip_of_blocks {r : Renderer} (h : (r.echoing.page f.text).blocks = [echo f.text]) :
    found Artifact.mark? f.text = [] ∧ ∀ line ∈ f.body, Artifact.saysEmpty line = false := by
  obtain ⟨inner, hgrow, hinner, hblocks⟩ := f.blocks_text r
  have hfirst := r.first_placeElements hgrow (hinner _) (Nat.le_refl (weight (Artifact.strip f.text))) Work.fresh rfl
  rw [← hblocks, h] at hfirst
  have hslight : Slight (weight (Artifact.strip f.text)) (echo f.text) := by simpa using hfirst
  have hle : weight f.text ≤ weight (Artifact.strip f.text) := by
    rcases hslight with hhead | ⟨x, hx, hle⟩
    · rw [head?_echo] at hhead
      exact absurd hhead (by decide)
    · exact echo_injective hx ▸ hle
  have hstrip := Artifact.weight_strip_le f.text
  have hmarks : found Artifact.mark? f.text = [] := List.length_eq_zero_iff.1 (by omega)
  have hremove : Artifact.removeMarks f.text = f.text := Text.mapFound_of_refused (found_eq_nil_iff.1 hmarks)
  have hlines : f.lines.countP Artifact.saysEmpty = 0 := by
    rw [hremove, lines_text] at hstrip
    omega
  refine ⟨hmarks, fun line hline => ?_⟩
  simpa using List.countP_eq_zero.1 hlines line (by simp [lines, hline])

/-- If the block is handed over, there is no block with a title in it: that one would be first. -/
theorem untitled_of_blocks {r : Renderer} (h : (r.echoing.page f.text).blocks = [echo f.text]) :
    found Code.titled? f.text = [] := by
  by_contra hfound
  obtain ⟨hmarks, hsections⟩ := strip_of_blocks h
  obtain ⟨inner, hgrow, -, hblocks⟩ := f.blocks_text r
  have htitled : First (fun b => b.head? = some '<') (Renderer.shelveAll Code.titled? (fun b => return b.html) f.text)
      fun _ => False :=
    (First.mapFoundM_shelved Code.takes_titled (fun b => .shelve b.html.write)
      (fun b => .shelve (S := fun b => b.head? = some '<') rfl _) f.text).imp fun u hu => hfound hu.2
  have hall : First (fun b => b.head? = some '<') (r.echoing.placeElements inner f.text) fun _ => False := by
    rw [Renderer.placeElements_eq]
    refine htitled.bind (fun t => ?_) fun t ht => ht.elim
    exact (Built.replaceFenced (fun block => .shelve _) t).bind fun u =>
      built_all (Renderer.built_passes r.echoing hgrow) u
  have hfirst := hall Work.fresh rfl
  rw [f.strip_text hmarks hsections] at hblocks
  rw [← hblocks, h] at hfirst
  simp [head?_echo] at hfirst

/-- If the block is handed over, the fence that is found first is the block. -/
theorem fenced_of_blocks {r : Renderer} (h : (r.echoing.page f.text).blocks = [echo f.text]) :
    Code.fenced? f.lines = some (f.lines, []) := by
  obtain ⟨hmarks, hsections⟩ := strip_of_blocks h
  obtain ⟨inner, hgrow, -, hblocks⟩ := f.blocks_text r
  obtain ⟨block, rest, hfenced⟩ := f.exists_fenced
  obtain ⟨hne, hlines⟩ := Code.eq_append_of_fenced? hfenced
  have htitled : Renderer.shelveAll Code.titled? (fun b => return b.html) f.text = pure f.text :=
    Text.mapFoundM_of_refused (found_eq_nil_iff.1 (untitled_of_blocks h))
  have hfirst : First (fun b => b = echo (Text.join "\n" block))
      (Code.replaceFenced (fun block => Work.shelve (r.echoing.engine block)) f.text) fun _ => False := by
    rw [Code.replaceFenced_eq, lines_text, hlines, Code.replaceLines_front hne (hlines ▸ hfenced), bind_assoc]
    refine (First.shelve (S := fun b => b = echo (Text.join "\n" block)) rfl fun _ => False).bind (fun part => ?_)
      fun part h => h.elim
    exact (Built.bind (.replaceLines (fun _ => .shelve _) rest) fun parts => .pure _).bind fun parts => .pure _
  have hall : First (fun b => b = echo (Text.join "\n" block)) (r.echoing.placeElements inner f.text) fun _ => False := by
    rw [Renderer.placeElements_eq, htitled, pure_bind]
    exact hfirst.bind (fun u => built_all (Renderer.built_passes r.echoing hgrow) u) fun u h => h.elim
  have hblock := hall Work.fresh rfl
  rw [f.strip_text hmarks hsections] at hblocks
  rw [← hblocks, h] at hblock
  have htext : f.text = Text.join "\n" block := echo_injective (by simpa using hblock)
  have hlinesBlock : Text.lines (Text.join "\n" block) = block :=
    Text.lines_join hne fun line hline => f.unbroken_lines line (hlines ▸ List.mem_append_left rest hline)
  have hself : f.lines = block := by rw [← lines_text, htext, hlinesBlock]
  obtain rfl : rest = [] := by simpa [hself] using hlines
  rw [hself]
  exact hself ▸ hfenced

theorem literal_of_blocks {r : Renderer} (h : (r.echoing.page f.text).blocks = [echo f.text]) : f.Literal where
  unmarked := (strip_of_blocks h).1
  filled := (strip_of_blocks h).2
  untitled := untitled_of_blocks h
  longest := f.fenced?_lines_iff.1 (fenced_of_blocks h)

end Fence

/-- With an engine that echoes, a document that is one fenced block is handed over as it stands, without an issue,
exactly if it is literal and does not hold the token of its own block. -/
theorem fence_verbatim_iff (r : Renderer) (f : Fence) :
    let page := r.echoing.page f.text
    page.blocks = [echo f.text] ∧ page.issues = [] ↔ f.Literal ∧ ¬ token 0 <:+: f.text := by
  constructor
  · rintro ⟨hblocks, hissues⟩
    have hliteral := Fence.literal_of_blocks hblocks
    exact ⟨hliteral, (hliteral.page r).2.1 hissues⟩
  · rintro ⟨hliteral, htoken⟩
    exact ⟨(hliteral.page r).1, (hliteral.page r).2.2 htoken⟩

/-- A block with a title inside a fence of tildes: it is shelved before the fence, which then holds its token. -/
theorem fence_around_title_changed :
    let f : Fence :=
      { mark := '~', size := 3, info := [], body := ["\x60\x60\x60js title=\"a.js\"", ['x'], Code.backticks], trail := []
        isMark := .inr rfl, three := by decide, plain := by decide, unbroken := by decide, inside := by decide
        blank := by decide }
    let page := (Renderer.ofSettings {} id).echoing.page f.text
    page.blocks.length = 2 ∧ page.blocks[1]? = some (echo "~~~\n\n\nDOCFORGESTASH0END\n\n\n~~~") := by
  decide +kernel

end DocPages
