import DocPages.Proofs.Page.Anatomy
import DocPages.Proofs.Page.Growth
import DocPages.Proofs.Page.Leftover
import DocPages.Proofs.Page.Quiet
import DocPages.Proofs.Text.Lines
import Mathlib.Algebra.GroupWithZero.Nat

/-!
# The first block of a page

As long as there is no block, a region is a part of the document or has a request section around some of it. So it
holds no more letters N and O than the document, of which every authoring artifact has one. The first block is then
an element, or what the engine makes of a text with no more of these letters.
-/

namespace DocPages

/-! ## Letters of artifacts -/

/-- How many letters N and O the text holds. -/
def weight (t : Text) : Nat := t.countP fun c => c == 'N' || c == 'O'

@[simp] theorem weight_nil : weight [] = 0 := rfl

@[simp] theorem weight_append (s t : Text) : weight (s ++ t) = weight s + weight t := List.countP_append

theorem weight_cons (c : Char) (t : Text) : weight (c :: t) = weight [c] + weight t := weight_append [c] t

theorem weight_mono {s t : Text} (h : s <:+: t) : weight s ≤ weight t := h.sublist.countP_le

theorem weight_join (ls : List Text) : weight (Text.join "\n" ls) = (ls.map weight).sum := by
  induction ls with
  | nil => rfl
  | cons s ls ih =>
    cases ls with
    | nil => simp [Text.join]
    | cons t ls =>
      have hbreak : weight ("\n" : String).toList = 0 := by decide
      rw [Text.join_cons_cons, weight_append, weight_append, ih, hbreak]
      simp

theorem weight_lines (t : Text) : ((Text.lines t).map weight).sum = weight t := by
  rw [← weight_join]
  exact congrArg weight (Text.join_splitAt '\n' t)

theorem weight_strip_le (t : Text) : weight (Text.strip t) ≤ weight t := by
  have hend : Text.trimEnd isBlank (t.dropWhile isBlank) <+: t.dropWhile isBlank :=
    List.reverse_suffix.1 (by simpa [Text.trimEnd] using List.dropWhile_suffix _)
  exact weight_mono (hend.isInfix.trans (List.dropWhile_suffix _).isInfix)

theorem weight_replace_nil_le (part t : Text) (h : part ≠ []) : weight (Text.replace part [] t) ≤ weight t := by
  induction t using Text.occurrence_induction h with
  | free t hfree => rw [Text.replace_of_infix_free hfree]
  | found s t hclear ih =>
    rw [Text.replace_found h hclear, weight_append, weight_append, weight_append, weight_append, weight_nil]
    omega

/-! ### Artifacts -/

namespace Artifact

/-- Every mark that is taken out takes letters with it. -/
theorem weight_removeMarks_le (t : Text) : weight (removeMarks t) + (found mark? t).length ≤ weight t := by
  rw [removeMarks]
  induction t using takes_mark.induction with
  | nil => exact Nat.le_refl _
  | kept c t hr ih =>
    rw [Text.mapFound_kept hr, found_kept hr, weight_cons, weight_cons c t]
    omega
  | found s t a hne hr ih =>
    obtain ⟨b, inside, more, -, -, -, hmark⟩ := mark?_eq_some hr
    have hletters : weight ("AUTO:" : String).toList = 1 := by decide
    have hs : s = "<!--" ++ (b ++ ("AUTO:" ++ (inside ++ '>' :: more))) :=
      List.append_cancel_right (by rw [hmark]; simp)
    have hweight : 1 ≤ weight s := by
      rw [hs, weight_append, weight_append, weight_append, hletters]
      omega
    rw [Text.mapFound_front hne hr, found_front hne hr, weight_append, weight_append, List.length_cons, weight_nil]
    omega

theorem weight_of_saysEmpty {line : Text} (h : saysEmpty line = true) : 1 ≤ weight line :=
  weight_mono (s := ['N', 'o']) (Markup.infix_of_saysEmpty h)

theorem weight_dropEmptySections_le (ls : List Text) :
    ((dropEmptySections ls).map weight).sum + ls.countP saysEmpty ≤ (ls.map weight).sum := by
  fun_induction dropEmptySections ls with
  | case1 => exact Nat.le_refl _
  | case2 line h => simpa [h] using weight_of_saysEmpty h
  | case3 line h => simp [h]
  | case4 line rest _ h ih =>
    have hline := weight_of_saysEmpty h
    simp only [List.countP_cons, h, List.map_cons, List.sum_cons, if_true]
    omega
  | case5 line rest _ h ih =>
    simp only [List.countP_cons, h, List.map_cons, List.sum_cons]
    simp only [Bool.false_eq_true, if_false]
    omega

theorem weight_strip_le (t : Text) :
    weight (strip t) + (found mark? t).length + (Text.lines (removeMarks t)).countP saysEmpty ≤ weight t := by
  have hmarks := weight_removeMarks_le t
  have hsections := weight_dropEmptySections_le (Text.lines (removeMarks t))
  rw [weight_lines] at hsections
  rw [strip, weight_join]
  omega

end Artifact

/-! ## Steps before the first block -/

/-- From an empty shelf, the step leaves it empty and gives a result with the property `Q`, or the first block that
it puts there has the property `S`. -/
def First (S : Text → Prop) {α : Type} (step : StateM Work α) (Q : α → Prop) : Prop :=
  ∀ w : Work, w.shelf.blocks = [] →
    ((step.run w).2.shelf.blocks = [] ∧ Q (step.run w).1) ∨ ∃ b ∈ (step.run w).2.shelf.blocks.head?, S b

namespace First

variable {S : Text → Prop} {α β : Type} {Q : α → Prop} {R : β → Prop}

theorem pure {a : α} (h : Q a) : First S (Pure.pure a) Q := fun _ hw => .inl ⟨hw, h⟩

theorem bind {step : StateM Work α} {next : α → StateM Work β} (h : First S step Q) (hgrow : ∀ a, Built (next a))
    (hnext : ∀ a, Q a → First S (next a) R) : First S (step >>= next) R := by
  intro w hw
  rw [Work.run_bind]
  rcases h w hw with ⟨hempty, hq⟩ | ⟨b, hb, hS⟩
  · exact hnext _ hq _ hempty
  · obtain ⟨more, hmore⟩ := (hgrow (step.run w).1).grows (step.run w).2
    refine .inr ⟨b, ?_, hS⟩
    rw [← hmore, Option.mem_def, List.head?_append, Option.mem_def.1 hb]
    rfl

theorem imp {P : α → Prop} {step : StateM Work α} (h : First S step Q) (hP : ∀ a, Q a → P a) : First S step P :=
  fun w hw => (h w hw).imp_left fun ⟨hempty, hq⟩ => ⟨hempty, hP _ hq⟩

theorem withIds {step : StateM IdSupply α} (h : ∀ ids, Q (step.run ids).1) : First S (Work.withIds step) Q :=
  fun w hw => .inl ⟨hw, h w.ids⟩

theorem report (issue : Issue) : First S (Work.report issue) fun _ => True := fun _ hw => .inl ⟨hw, trivial⟩

theorem shelve {block : Text} (h : S block) (Q : Text → Prop) : First S (Work.shelve block) Q := by
  intro w hw
  have hblocks : ((Work.shelve block).run w).2.shelf.blocks = w.shelf.blocks ++ [block] := rfl
  exact .inr ⟨block, by simp [hblocks, hw], h⟩

theorem mapM {step : α → StateM Work β} (hgrow : ∀ a, Built (step a)) {as : List α}
    (h : ∀ a ∈ as, First S (step a) fun _ => True) : First S (as.mapM step) fun _ => True := by
  induction as with
  | nil => exact pure trivial
  | cons a as ih =>
    rw [List.mapM_cons]
    refine (h a List.mem_cons_self).bind (fun b => (Built.mapM hgrow as).bind fun bs => .pure _) fun b _ => ?_
    exact (ih fun c hc => h c (List.mem_cons_of_mem a hc)).bind (fun bs => .pure _) fun bs _ => pure trivial

theorem foldlM {step : β → α → StateM Work β} (hgrow : ∀ b a, Built (step b a))
    (h : ∀ b a, R b → First S (step b a) R) (as : List α) {b : β} (hb : R b) : First S (as.foldlM step b) R := by
  induction as generalizing b with
  | nil => exact pure hb
  | cons a as ih =>
    rw [List.foldlM_cons]
    exact (h b a hb).bind (fun b => Built.foldlM hgrow as b) fun b hb => ih hb

/-- A search keeps what it passes over, so its result is no heavier if nothing heavier is written for what is
found. -/
theorem mapFoundM {read : Reader Char α} {write : α → StateM Work Text} (hread : Takes read)
    (hgrow : ∀ a, Built (write a)) {n : Nat}
    (h : ∀ s t a, read (s ++ t) = some (a, t) → weight s ≤ n → First S (write a) fun u => weight u ≤ weight s)
    {t : Text} (ht : weight t ≤ n) : First S (Text.mapFoundM read write t) fun u => weight u ≤ weight t := by
  induction t using hread.induction with
  | nil => exact pure (Nat.le_refl _)
  | kept c t hr ih =>
    rw [weight_cons] at ht
    rw [Text.mapFoundM_kept hr]
    refine (ih (by omega)).bind (fun u => .pure _) fun u hu => pure ?_
    rw [weight_cons, weight_cons c t]
    omega
  | found s t a hs hr ih =>
    rw [weight_append] at ht
    rw [Text.mapFoundM_front hs hr]
    have hwrite := h s t a hr (by omega)
    refine hwrite.bind (fun u => (Built.mapFoundM hgrow t).bind fun v => .pure _) fun u hu => ?_
    refine (ih (by omega)).bind (fun v => .pure _) fun v hv => pure ?_
    rw [weight_append, weight_append]
    omega

/-- Where something is shelved for whatever is found, a search that leaves the shelf empty has found nothing. -/
theorem mapFoundM_shelved {read : Reader Char α} {write : α → StateM Work Text} (hread : Takes read)
    (hgrow : ∀ a, Built (write a)) (h : ∀ a, First S (write a) fun _ => False) (t : Text) :
    First S (Text.mapFoundM read write t) fun u => u = t ∧ found read t = [] := by
  induction t using hread.induction with
  | nil => exact pure ⟨rfl, rfl⟩
  | kept c t hr ih =>
    rw [Text.mapFoundM_kept hr]
    refine ih.bind (fun u => .pure _) fun u hu => pure ⟨by rw [hu.1], ?_⟩
    rw [found, pieces_kept hr]
    exact hu.2
  | found s t a hs hr ih =>
    rw [Text.mapFoundM_front hs hr]
    exact (h a).bind (fun u => (Built.mapFoundM hgrow t).bind fun v => .pure _) fun u hu => hu.elim

end First

/-! ## The passes -/

open Html (IsElement)

/-- What the first block of a text may be that holds at most `n` of the letters. -/
def Slight (n : Nat) (b : Text) : Prop := b.head? = some '<' ∨ ∃ x, b = echo x ∧ weight x ≤ n

theorem Html.IsElement.slight {h : Html} (hh : h.IsElement) (n : Nat) : Slight n h.write := by
  obtain ⟨tag, attrs, body, rfl⟩ := hh
  exact .inl rfl

theorem weight_inside_le {s rest before inside after : Text} (h : s ++ rest = before ++ (inside ++ (after ++ rest))) :
    weight inside ≤ weight s := by
  have hweight := congrArg weight h
  simp only [weight_append] at hweight
  omega

section
variable {n : Nat} {α : Type} {t : Text}

theorem First.shelve_element {step : StateM Work Html} (h : First (Slight n) step IsElement) (Q : Text → Prop) :
    First (Slight n) (do Work.shelve (← step).write) Q :=
  h.bind (fun _ => .shelve _) fun _ hh => .shelve (hh.slight n) Q

theorem first_reject (c : Api.Component) (f : Api.Fault) (Q : Text → Prop) :
    First (Slight n) (Api.reject c f) Q :=
  (First.report _).bind (fun _ => .shelve _) fun _ _ => .shelve (Html.IsElement.slight ⟨_, _, _, rfl⟩ n) Q

theorem first_place (maxDepth : Int) (c : Api.Component) (o : Api.Occurrence) (s : Text) :
    First (Slight n) (Api.place maxDepth c o) fun u => weight u ≤ weight s := by
  cases o with
  | bare => exact .pure (Nat.zero_le _)
  | unclosed => exact first_reject c .unbalanced _
  | payload raw =>
    cases hp : Api.payload? raw with
    | none =>
      simp only [Api.place, hp]
      exact first_reject c .invalid _
    | some payload =>
      have hcard : First (Slight n) (Work.withIds (c.render maxDepth payload)) fun o => ∀ card ∈ o, card.IsElement :=
        .withIds fun ids card h => isElement_of_render h
      simp only [Api.place, hp]
      refine hcard.bind (fun o => ?_) fun o ho => ?_
      · cases o with
        | none => exact .pure []
        | some card => exact (Built.shelve _).bind fun held => .pure _
      · cases o with
        | none => exact .pure (Nat.zero_le _)
        | some card =>
          have hshelved := First.shelve ((ho card rfl).slight n) fun _ => False
          exact hshelved.bind (fun held => .pure _) fun held h => h.elim

theorem weight_requestId (number : Nat) : weight (IdSupply.id "request" number) = 0 := by
  have hkind : weight ("request" : String).toList = 0 := by decide
  have hhyphen : weight ['-'] = 0 := by decide
  have hnumber : weight (Text.ofNat number) = 0 := by
    refine List.countP_eq_zero.2 fun c hc he => ?_
    have hdigit := Text.isDigit_of_mem_ofNat hc
    rcases (by simpa using he : c = 'N' ∨ c = 'O') with rfl | rfl <;> exact absurd hdigit (by decide)
  rw [IdSupply.id, weight_append, weight_cons, hkind, hhyphen, hnumber]

theorem weight_requestOpening (id : Text) : weight (Api.requestOpening id) = weight id := by
  have hfront : weight ("<div class=\"doc-api-section doc-api-request\">\n<h2 id=\"" : String).toList = 0 := by
    decide
  have hback : weight ("\">Request</h2>\n" : String).toList = 0 := by decide
  unfold Api.requestOpening
  rw [weight_append, weight_append, hfront, hback, Nat.add_zero, Nat.zero_add]

theorem weight_wrapRequest_le (t : Text) (s : IdSupply) : weight ((Api.wrapRequest t).run s).1 ≤ weight t := by
  rcases Api.wrapRequest_run t s with h | ⟨before, inner, last, after, number, -, ht, h⟩
  · rw [h]
  · have hinner : weight (Text.replace Api.requestMark [] inner) ≤ weight inner :=
      weight_replace_nil_le _ inner (by decide)
    have hgap : weight ("\n\n" : String).toList = 0 := by decide
    have hbreak : weight ("\n" : String).toList = 0 := by decide
    have hclosing : weight ("\n\n</div>\n\n" : String).toList = 0 := by decide
    rw [h, ht]
    simp only [weight_append, weight_requestOpening, weight_requestId, hgap, hbreak, hclosing]
    clear hgap hbreak hclosing
    omega

theorem first_placeComponents (maxDepth : Int) (ht : weight t ≤ n) :
    First (Slight n) (Api.placeComponents maxDepth t) fun u => weight u ≤ n := by
  have hkind (u : Text) (c : Api.Component) (hu : weight u ≤ n) :
      First (Slight n) (Api.placeAll maxDepth c u) fun v => weight v ≤ n := by
    refine (First.mapFoundM (Api.takes_occurrence c) (built_place maxDepth c) (fun s v o _ _ => ?_) hu).imp
      fun v hv => hv.trans hu
    exact first_place maxDepth c o s
  have hgrow (u : Text) (c : Api.Component) : Built (Api.placeAll maxDepth c u) := .mapFoundM (built_place maxDepth c) u
  refine (First.foldlM hgrow hkind Api.Component.all ht).bind (fun u => .withIds _) fun u hu => ?_
  exact .withIds fun ids => (weight_wrapRequest_le u ids).trans hu

theorem first_replaceLines {ls : List Text} (h : (ls.map weight).sum ≤ n) :
    First (Slight n) (Code.replaceLines (fun block => Work.shelve (echo block)) ls)
      fun parts => (parts.map weight).sum ≤ (ls.map weight).sum := by
  induction ls using Code.takes_fenced.induction with
  | nil => exact .pure (Nat.le_refl _)
  | kept line ls hr ih =>
    rw [List.map_cons, List.sum_cons] at h ⊢
    rw [Code.replaceLines_kept hr]
    refine (ih (by omega)).bind (fun parts => .pure _) fun parts hparts => .pure ?_
    rw [List.map_cons, List.sum_cons]
    omega
  | found s ls block hs hr ih =>
    obtain ⟨-, hblock⟩ := Code.eq_append_of_fenced? hr
    obtain rfl : s = block := List.append_cancel_right hblock
    rw [List.map_append, List.sum_append] at h
    rw [Code.replaceLines_front hs hr]
    have hslight : Slight n (echo (Text.join "\n" s)) := .inr ⟨_, rfl, by rw [weight_join]; omega⟩
    have hgrow : Built (Code.replaceLines (fun block => Work.shelve (echo block)) ls) := .replaceLines (fun _ => .shelve _) ls
    have hshelved := First.shelve hslight fun _ => False
    exact hshelved.bind (fun part => hgrow.bind fun parts => .pure _) fun part h => h.elim

theorem first_replaceFenced (ht : weight t ≤ n) :
    First (Slight n) (Code.replaceFenced (fun block => Work.shelve (echo block)) t) fun u => weight u ≤ n := by
  rw [← weight_lines] at ht
  refine (first_replaceLines ht).bind (fun parts => .pure _) fun parts hparts => .pure ?_
  rw [weight_join]
  exact hparts.trans ht

theorem weight_titled_le {name s rest : Text} {e : Element.Labelled}
    (h : Element.titled? name (s ++ rest) = some (e, rest)) : weight e.body ≤ weight s := by
  obtain ⟨b, b', -, -, -, hread⟩ := Element.titled?_eq_some h
  have hparts : s ++ rest = (Element.startTag name ++ (b ++ ("title=\"" ++ (e.label ++ '"' :: (b' ++ ['>']))))) ++
      (e.body ++ (Element.endTag name ++ rest)) := by
    rw [hread]
    simp
  exact weight_inside_le hparts

theorem weight_plain_le {name s rest body : Text} (h : Element.plain? name (s ++ rest) = some (body, rest)) :
    weight body ≤ weight s := by
  obtain ⟨b, -, -, hread⟩ := Element.plain?_eq_some h
  have hparts : s ++ rest = (Element.startTag name ++ (b ++ ['>'])) ++ (body ++ (Element.endTag name ++ rest)) := by
    rw [hread]
    simp
  exact weight_inside_le hparts

theorem weight_described_le {name s rest : Text} {e : Element.Described}
    (h : Element.described? name (s ++ rest) = some (e, rest)) : weight e.body ≤ weight s := by
  obtain ⟨inside, -, -, hread⟩ := Element.described?_eq_some h
  have hparts : s ++ rest = (Element.startTag name ++ (inside ++ ['>'])) ++ (e.body ++ (Element.endTag name ++ rest)) := by
    rw [hread]
    simp
  exact weight_inside_le hparts

theorem weight_callout_le {s rest : Text} {e : Element.Labelled} (h : Element.callout? (s ++ rest) = some (e, rest)) :
    weight e.body ≤ weight s := by
  obtain ⟨b, -, -, hread⟩ := Element.callout?_eq_some h
  have hparts : s ++ rest = (Element.colons ++ (e.label ++ (b ++ ['\n']))) ++ (e.body ++ (Element.colons ++ rest)) := by
    rw [hread]
    simp
  exact weight_inside_le hparts

namespace Renderer

variable {html : α → StateM Work Html} {inner : Text → StateM Work Text}

theorem first_shelveAll {read : Reader Char α} (hread : Takes read) (hgrow : ∀ a, Built (html a))
    (h : ∀ s u a, read (s ++ u) = some (a, u) → weight s ≤ n → First (Slight n) (html a) IsElement)
    (ht : weight t ≤ n) : First (Slight n) (shelveAll read html t) fun u => weight u ≤ n := by
  have hshelve (a : α) : Built (do Work.shelve (← html a).write) := (hgrow a).bind fun _ => .shelve _
  refine (First.mapFoundM hread hshelve (fun s u a hr hs => ?_) ht).imp fun u hu => hu.trans ht
  exact (h s u a hr hs).shelve_element _

theorem first_described (name : Text) {template : Attributes → Text → Html} (hgrow : ∀ u, Built (inner u))
    (hinner : ∀ u, weight u ≤ n → First (Slight n) (inner u) fun _ => True)
    (htemplate : ∀ as u, (template as u).IsElement) (ht : weight t ≤ n) :
    First (Slight n) (shelveAll (Element.described? name)
      (fun e : Element.Described => do return template e.attributes (← inner e.body)) t) fun u => weight u ≤ n := by
  refine first_shelveAll (Element.takes_described name) (fun e => .bind (hgrow _) fun u => .pure _) ?_ ht
  intro s u e hr hs
  exact (hinner _ ((weight_described_le hr).trans hs)).bind (fun u => .pure _) fun u _ => .pure (htemplate _ _)

/-- Bodies of items are no heavier than the body of the group. -/
theorem weight_item_le {item body : Text} {e : Element.Labelled} (he : e ∈ found (Element.titled? item) body) :
    weight e.body ≤ weight body := by
  obtain ⟨s, u, hsuffix, hr⟩ := (Element.takes_titled item).of_mem_found he
  exact (weight_titled_le hr).trans (weight_mono ((List.prefix_append s u).isInfix.trans hsuffix.isInfix))

theorem first_shelveGroups (name item : Text) {html : List Element.Labelled → StateM Work Html}
    (hgrow : ∀ items, Built (html items))
    (h : ∀ items, (∀ e ∈ items, weight e.body ≤ n) → First (Slight n) (html items) IsElement) (ht : weight t ≤ n) :
    First (Slight n) (shelveGroups name item html t) fun u => weight u ≤ n := by
  refine (First.mapFoundM (Element.takes_plain name) (fun body => ?_) (fun s u body hr hs => ?_) ht).imp
    fun u hu => hu.trans ht
  · split
    · exact .pure body
    · exact (hgrow _).bind fun _ => .shelve _
  · have hbody : weight body ≤ weight s := weight_plain_le hr
    cases hitems : found (Element.titled? item) body with
    | nil => exact .pure hbody
    | cons e es =>
      exact (h _ fun e he => (weight_item_le (hitems ▸ he)).trans (hbody.trans hs)).shelve_element _

theorem first_passes (r : Renderer) (hgrow : ∀ u, Built (inner u))
    (hinner : ∀ u, weight u ≤ n → First (Slight n) (inner u) fun _ => True) :
    ∀ pass ∈ r.passes inner, ∀ t, weight t ≤ n → First (Slight n) (pass t) fun u => weight u ≤ n := by
  have hitems {β : Type} (items : List Element.Labelled) (f : Element.Labelled → Text → β)
      (h : ∀ e ∈ items, weight e.body ≤ n) :
      First (Slight n) (items.mapM fun e => do return f e (← inner e.body)) fun _ => True := by
    refine First.mapM (fun e => ?_) fun e he => ?_
    · exact (hgrow _).bind fun u => .pure _
    · exact (hinner _ (h e he)).bind (fun u => .pure _) fun u _ => .pure trivial
  have hgrowItems {β : Type} (items : List Element.Labelled) (f : Element.Labelled → Text → β) :
      Built (items.mapM fun e => do return f e (← inner e.body)) :=
    .mapM (fun e => .bind (hgrow _) fun u => .pure _) items
  unfold passes
  simp only [List.forall_mem_cons]
  refine ⟨fun t ht => ?_, fun t ht => ?_, fun t ht => ?_, fun t ht => ?_,
    fun t ht => first_described _ hgrow hinner (fun as u => ⟨_, _, _, rfl⟩) ht,
    fun t ht => first_described _ hgrow hinner isElement_card ht,
    fun t ht => first_described _ hgrow hinner (fun as u => ⟨_, _, _, rfl⟩) ht,
    fun t ht => ?_, fun t ht => first_placeComponents r.maxDepth ht, fun t ht => ?_,
    fun t ht => first_described _ hgrow hinner (fun as u => ⟨_, _, _, rfl⟩) ht, by simp⟩
  · refine first_shelveAll Element.takes_callout (fun e => .bind (hgrow _) fun u => .pure _) (fun s u e hr hs => ?_) ht
    exact (hinner _ ((weight_callout_le hr).trans hs)).bind (fun u => .pure _) fun u _ => .pure ⟨_, _, _, rfl⟩
  · refine first_shelveAll (Element.takes_titled _) (fun e => .bind (hgrow _) fun u => .pure _) (fun s u e hr hs => ?_) ht
    exact (hinner _ ((weight_titled_le hr).trans hs)).bind (fun u => .pure _) fun u _ => .pure ⟨_, _, _, rfl⟩
  · refine first_shelveGroups _ _ (fun items => ?_) (fun items hle => ?_) ht
    · exact (Built.withIds _).bind fun id => (hgrowItems items fun e u => (e.label, u)).bind fun parts => .pure _
    · refine (First.withIds (Q := fun _ => True) fun _ => trivial).bind (fun id => ?_) fun id _ => ?_
      · exact (hgrowItems items fun e u => (e.label, u)).bind fun parts => .pure _
      · refine (hitems items (fun e u => (e.label, u)) hle).bind (fun parts => .pure _) fun parts _ => ?_
        exact .pure ⟨_, _, _, rfl⟩
  · refine first_shelveGroups _ _ (fun items => ?_) (fun items hle => ?_) ht
    · exact (hgrowItems items fun e u => (e.label, u)).bind fun parts => .pure _
    · refine (hitems items (fun e u => (e.label, u)) hle).bind (fun parts => .pure _) fun parts _ => ?_
      exact .pure ⟨_, _, _, rfl⟩
  · refine first_shelveAll (Element.takes_plain _) (fun e => .bind (hgrow _) fun u => .pure _) (fun s u e hr hs => ?_) ht
    exact (hinner _ ((weight_plain_le hr).trans hs)).bind (fun u => .pure _) fun u _ => .pure ⟨_, _, _, rfl⟩
  · refine first_shelveAll (Element.takes_single _) (fun as => .pure _) (fun s u e hr hs => ?_) ht
    exact .pure ⟨_, _, _, rfl⟩

theorem first_all {passes : List (Text → StateM Work Text)} (hgrow : ∀ pass ∈ passes, ∀ t, Built (pass t))
    (h : ∀ pass ∈ passes, ∀ t, weight t ≤ n → First (Slight n) (pass t) fun u => weight u ≤ n) (ht : weight t ≤ n) :
    First (Slight n) (passes.foldlM (fun t pass => pass t) t) fun u => weight u ≤ n := by
  induction passes generalizing t with
  | nil => exact .pure ht
  | cons pass passes ih =>
    have hgrow' : ∀ p ∈ passes, ∀ t, Built (p t) := fun p hp => hgrow p (List.mem_cons_of_mem pass hp)
    rw [List.foldlM_cons]
    refine (h pass List.mem_cons_self t ht).bind (fun u => built_all hgrow' u) fun u hu => ?_
    exact ih hgrow' (fun p hp => h p (List.mem_cons_of_mem pass hp)) hu

theorem first_placeElements (r : Renderer) (hgrow : ∀ u, Built (inner u))
    (hinner : ∀ u, weight u ≤ n → First (Slight n) (inner u) fun _ => True) (ht : weight t ≤ n) :
    First (Slight n) (r.echoing.placeElements inner t) fun u => weight u ≤ n := by
  have hpasses := built_passes r.echoing hgrow
  have htitled : First (Slight n) (shelveAll Code.titled? (fun b => return b.html) t) fun u => weight u ≤ n :=
    first_shelveAll Code.takes_titled (fun b => .pure _) (fun _ _ _ _ _ => .pure ⟨_, _, _, rfl⟩) ht
  rw [placeElements_eq]
  refine htitled.bind (fun u => ?_) fun u hu => ?_
  · exact (Built.replaceFenced (fun block => .shelve _) u).bind fun v => built_all hpasses v
  · refine (first_replaceFenced hu).bind (fun v => built_all hpasses v) fun v hv => ?_
    exact first_all hpasses (first_passes r.echoing hgrow hinner) hv

/-- What the first block of a region may be. -/
theorem first_renderWithin (r : Renderer) (depth : Nat) (ht : weight t ≤ n) :
    First (Slight n) (r.echoing.renderWithin depth t) fun _ => True := by
  induction depth generalizing t with
  | zero => exact .pure trivial
  | succ depth ih =>
    have hgrow (u : Text) : Built (r.echoing.renderWithin depth (Text.strip u)) := built_renderWithin _ depth _
    have hinner (u : Text) (hu : weight u ≤ n) :
        First (Slight n) (r.echoing.renderWithin depth (Text.strip u)) fun _ => True :=
      ih ((weight_strip_le u).trans hu)
    have hstrip : weight (Artifact.strip t) ≤ n := by
      have hle := Artifact.weight_strip_le t
      omega
    rw [renderWithin]
    exact (first_placeElements r hgrow hinner hstrip).bind (fun u => .pure _) fun u _ => .pure trivial

end Renderer

end

end DocPages
