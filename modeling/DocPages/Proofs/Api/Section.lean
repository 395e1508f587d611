import DocPages.Proofs.Api.Document

/-!
# The section of the request

A document is a row of stretches: texts, tags and, once a tag has been replaced, the place of its card. The section of
the request begins in front of the first card that describes the request and ends behind the last one, whatever
stands between them. So what a part of the document becomes depends on the rest of it only by whether a request part
stands before and whether one stands behind.
-/

namespace DocPages.Api

open DocPages.Text (Clear)

/-- A tag whose payload holds a value. -/
structure Tag where
  component : Component
  payload : Text
  value : Json

namespace Tag

/-- The tag with nothing behind it. -/
def bare (t : Tag) : Tagged := ⟨t.component, t.payload, t.value, []⟩

def write (t : Tag) : Text := t.bare.write

end Tag

/-- A stretch of a document. -/
inductive Stretch where
  | plain (s : Text)
  | tag (t : Tag)
  | card (c : Component) (n : Nat)

namespace Stretch

def write : Stretch → Text
  | plain s => s
  | tag t => t.write
  | card c n => placed c n

/-- What a stretch is, as long as it does not matter whether its tag has been replaced. -/
def outline : Stretch → Stretch
  | plain s => plain s
  | tag t => card t.component 0
  | card c _ => card c 0

/-- A tag that describes the request, or the card of one. -/
def isRequest : Stretch → Bool
  | plain _ => false
  | tag t => t.component.isRequestPart
  | card c _ => c.isRequestPart

def isTag : Stretch → Bool
  | tag _ => true
  | _ => false

/-- No tag and no mark of the request begins in a text, wherever it stands; a tag shows as a card. -/
def Sound (maxDepth : Int) : Stretch → Prop
  | plain s => (∀ c r, Clear (openTag c) s r) ∧ ∀ r, Clear requestMark s r
  | tag t => t.bare.WellFormed maxDepth
  | card _ _ => True

end Stretch

def flat (L : List Stretch) : Text := L.flatMap Stretch.write

def hasRequest (L : List Stretch) : Bool := L.any Stretch.isRequest

def gap : Text := "\n\n"

def sectionStart (id : Text) : Text := gap ++ (requestOpening id ++ "\n")

def sectionEnd : Text := "\n\n</div>\n\n"

/-- What a stretch becomes: the marks of a card of the request are taken out, and the section opens in front of it
unless a request part stands before, and ends behind it unless one stands behind. -/
def Stretch.wrap (id : Text) (before behind : Bool) : Stretch → Text
  | .card c n =>
    if c.isRequestPart then
      gap ++ ((if before then [] else sectionStart id) ++ (Shelf.place n ++ ((if behind then [] else sectionEnd) ++ gap)))
    else Shelf.place n
  | s => s.write

/-- The same for a row of stretches. -/
def wrapped (id : Text) (before behind : Bool) : List Stretch → Text
  | [] => []
  | s :: L => s.wrap id before (hasRequest L || behind) ++ wrapped id (before || s.isRequest) behind L

section
variable {maxDepth : Int} {L A B : List Stretch} {s : Stretch} {t : Text} {id : Text} {b a : Bool}

theorem flat_cons (s : Stretch) (L : List Stretch) : flat (s :: L) = s.write ++ flat L := List.flatMap_cons

theorem flat_append (A B : List Stretch) : flat (A ++ B) = flat A ++ flat B := List.flatMap_append

theorem hasRequest_cons (s : Stretch) (L : List Stretch) : hasRequest (s :: L) = (s.isRequest || hasRequest L) :=
  List.any_cons

theorem hasRequest_append (A B : List Stretch) : hasRequest (A ++ B) = (hasRequest A || hasRequest B) :=
  List.any_append

theorem isRequest_outline (s : Stretch) : s.outline.isRequest = s.isRequest := by cases s <;> rfl

/-- Whether a part of the request is there does not depend on what has been replaced. -/
theorem hasRequest_of_outline (h : A.map Stretch.outline = B.map Stretch.outline) : hasRequest A = hasRequest B := by
  have houtline (L : List Stretch) : hasRequest L = hasRequest (L.map Stretch.outline) := by
    simp [hasRequest, List.any_map, Function.comp_def, isRequest_outline]
  rw [houtline A, houtline B, h]

/-- Replacing tags leaves the texts between them. -/
theorem plain_mem_of_outline {u : Text} (h : A.map Stretch.outline = B.map Stretch.outline) (hu : .plain u ∈ A) :
    .plain u ∈ B := by
  have hmem : Stretch.outline (.plain u) ∈ B.map Stretch.outline := h ▸ List.mem_map_of_mem hu
  obtain ⟨s, hs, he⟩ := List.mem_map.1 hmem
  cases s with
  | plain v =>
    obtain rfl : v = u := Stretch.plain.inj he
    exact hs
  | tag t => cases he
  | card c n => cases he

theorem eq_plain_of_outline {u : Text} (h : s.outline = .plain u) : s = .plain u := by
  cases s with
  | plain v => exact h
  | tag t => cases h
  | card c n => cases h

/-! ## The passes -/

/-- Tags of some kinds have been exchanged for the places of their cards, each of which is on the shelf. -/
structure Exchanged (maxDepth : Int) (cs : List Component) (L L' : List Stretch) (w w' : Work) : Prop where
  outline : L'.map Stretch.outline = L.map Stretch.outline
  sound : ∀ s ∈ L', s.Sound maxDepth
  tags : ∀ t, .tag t ∈ L' → .tag t ∈ L ∧ t.component ∉ cs
  size : w'.shelf.size + L'.countP Stretch.isTag = w.shelf.size + L.countP Stretch.isTag

section
variable {cs : List Component} {L' L'' : List Stretch} {w w' w'' : Work}

/-- A stretch that is no tag of these kinds stays. -/
theorem Exchanged.keep (h : Exchanged maxDepth cs L L' w w') (hs : s.Sound maxDepth)
    (hkind : ∀ t, s = .tag t → t.component ∉ cs) : Exchanged maxDepth cs (s :: L) (s :: L') w w' where
  outline := by simp [h.outline]
  sound := List.forall_mem_cons.2 ⟨hs, h.sound⟩
  tags t ht := by
    rcases List.mem_cons.1 ht with ht | ht
    · exact ⟨ht ▸ List.mem_cons_self, hkind t ht.symm⟩
    · exact (h.tags t ht).imp_left (List.mem_cons_of_mem s)
  size := by
    rw [List.countP_cons, List.countP_cons]
    have hsize := h.size
    omega

theorem Exchanged.card (h : Exchanged maxDepth cs L L' w' w'') (hone : w'.shelf.size = w.shelf.size + 1) (t : Tag) (n : Nat) :
    Exchanged maxDepth cs (.tag t :: L) (.card t.component n :: L') w w'' where
  outline := by simp [h.outline, Stretch.outline]
  sound := List.forall_mem_cons.2 ⟨trivial, h.sound⟩
  tags u hu := by
    have hu : .tag u ∈ L' := by simpa using hu
    exact (h.tags u hu).imp_left (List.mem_cons_of_mem _)
  size := by
    have hsize := h.size
    rw [List.countP_cons, List.countP_cons]
    simp only [Stretch.isTag, if_true, Bool.false_eq_true, if_false]
    omega

theorem Exchanged.trans {c : Component} (h : Exchanged maxDepth [c] L L' w w') (h' : Exchanged maxDepth cs L' L'' w' w'') :
    Exchanged maxDepth (c :: cs) L L'' w w'' where
  outline := h'.outline.trans h.outline
  sound := h'.sound
  tags t ht := by
    obtain ⟨ht, hcs⟩ := h'.tags t ht
    obtain ⟨ht, hc⟩ := h.tags t ht
    exact ⟨ht, fun hmem => (List.mem_cons.1 hmem).elim (fun he => hc (List.mem_singleton.2 he)) hcs⟩
  size := h'.size.trans h.size

end

/-- The pass over a kind puts the places of their cards where the tags of that kind stand. -/
theorem placeAll_flat {c : Component} (hL : ∀ s ∈ L, s.Sound maxDepth) (w : Work) :
    ∃ L' w', (placeAll maxDepth c (flat L)).run w = (flat L', w') ∧ Exchanged maxDepth [c] L L' w w' := by
  induction L generalizing w with
  | nil => exact ⟨[], w, rfl, rfl, by simp, by simp, rfl⟩
  | cons s L ih =>
    obtain ⟨hs, hrest⟩ := List.forall_mem_cons.1 hL
    -- What is passed over stays in front of what the rest becomes.
    have hkeep (hfree : Refused (occurrence? c) s.write (flat L)) (hkind : ∀ t, s = .tag t → t.component ∉ [c]) :
        ∃ L' w', (placeAll maxDepth c (flat (s :: L))).run w = (flat L', w') ∧
          Exchanged maxDepth [c] (s :: L) L' w w' := by
      obtain ⟨L', w', hrun, hexchanged⟩ := ih hrest w
      refine ⟨s :: L', w', ?_, hexchanged.keep hs hkind⟩
      rw [flat_cons, flat_cons]
      exact placeAll_append hfree hrun
    cases s with
    | plain s => exact hkeep (refused_of_clear (hs.1 c _)) (by simp)
    | card d n => exact hkeep (refused_of_clear (clear_placed c d n _)) (by simp)
    | tag t =>
      by_cases hc : t.component = c
      · subst hc
        obtain ⟨w', hstored, hplace⟩ := place_payload (p := (t.bare, 0)) hs w
        obtain ⟨L', w'', hrun, hexchanged⟩ := ih hrest w'
        refine ⟨.card t.component w.shelf.size :: L', w'', ?_, hexchanged.card hstored.size t _⟩
        rw [flat_cons, flat_cons]
        exact placeAll_write hs hplace hrun
      · refine hkeep (refused_of_clear (clear_write hs.calm_payload (Ne.symm hc) _)) fun u hu => ?_
        obtain rfl : t = u := by simpa using hu
        exact fun hmem => hc (List.mem_singleton.1 hmem)

/-- The passes over all kinds leave no tag behind. -/
theorem placeKinds_flat (cs : List Component) (hL : ∀ s ∈ L, s.Sound maxDepth) (w : Work) :
    ∃ L' w', (cs.foldlM (fun t c => placeAll maxDepth c t) (flat L)).run w = (flat L', w') ∧
      Exchanged maxDepth cs L L' w w' := by
  induction cs generalizing L w with
  | nil => exact ⟨L, w, rfl, rfl, hL, fun t ht => ⟨ht, by simp⟩, rfl⟩
  | cons c cs ih =>
    obtain ⟨L', w', hrun, hexchanged⟩ := placeAll_flat (c := c) hL w
    obtain ⟨L'', w'', hrun', hexchanged'⟩ := ih hexchanged.sound w'
    refine ⟨L'', w'', ?_, hexchanged.trans hexchanged'⟩
    rw [List.foldlM_cons, StateT.run_bind, hrun]
    exact hrun'

/-! ## The section -/

theorem wrapped_plain (u : Text) (L : List Stretch) : wrapped id b a (.plain u :: L) = u ++ wrapped id b a L := by
  rw [wrapped, Stretch.isRequest, Bool.or_false]
  rfl

theorem wrapped_append (A B : List Stretch) :
    wrapped id b a (A ++ B) = wrapped id b (hasRequest B || a) A ++ wrapped id (b || hasRequest A) a B := by
  induction A generalizing b with
  | nil => simp [wrapped, hasRequest]
  | cons s A ih =>
    rw [List.cons_append, wrapped, wrapped, ih, hasRequest_append, hasRequest_cons, Bool.or_assoc, Bool.or_assoc,
      List.append_assoc]

/-- A text or the place of a card. -/
def Stretch.Replaced : Stretch → Prop
  | .plain s => ∀ r, Clear requestMark s r
  | .tag _ => False
  | .card _ _ => True

theorem exists_card (hs : s.isRequest = true) (h : s.Replaced) :
    ∃ c n, s = .card c n ∧ c.isRequestPart = true := by
  cases s with
  | plain t => cases hs
  | tag t => exact h.elim
  | card c n => exact ⟨c, n, rfl, hs⟩

theorem placed_request {c : Component} (h : c.isRequestPart = true) (n : Nat) :
    placed c n = gap ++ (requestMark ++ (Shelf.place n ++ (requestMark ++ gap))) := by
  rw [placed, if_pos h]
  simp only [List.append_assoc, gap]

theorem clear_mark_of_notMem (h : '<' ∉ t) (r : Text) : Clear requestMark t r := Text.clear_of_notMem h r

theorem notMem_place (n : Nat) : '<' ∉ Shelf.place n := fun h => by
  have hmem : '<' ∈ Shelf.token n := by simpa [Shelf.place] using h
  exact absurd (Shelf.isAlphanum_of_mem_token hmem) (by decide)

/-- Without a part of the request there is no mark, and nothing is wrapped. -/
theorem clear_flat (hL : ∀ s ∈ L, s.Replaced) (h : hasRequest L = false) (r : Text) : Clear requestMark (flat L) r := by
  induction L with
  | nil => exact .nil _ r
  | cons s L ih =>
    obtain ⟨hs, hrest⟩ := List.forall_mem_cons.1 hL
    rw [hasRequest_cons, Bool.or_eq_false_iff] at h
    rw [flat_cons]
    refine .append ?_ (ih hrest h.2)
    cases s with
    | plain t => exact hs _
    | tag t => exact hs.elim
    | card c n =>
      have hc : c.isRequestPart = false := h.1
      simp only [Stretch.write, placed, hc]
      exact clear_mark_of_notMem (notMem_place n) _

theorem wrapped_of_not_hasRequest (hL : ∀ s ∈ L, s.Replaced) (h : hasRequest L = false) : wrapped id b a L = flat L := by
  induction L generalizing b with
  | nil => rfl
  | cons s L ih =>
    obtain ⟨hs, hrest⟩ := List.forall_mem_cons.1 hL
    rw [hasRequest_cons, Bool.or_eq_false_iff] at h
    rw [wrapped, flat_cons, ih hrest h.2]
    cases s with
    | plain t => rfl
    | tag t => exact hs.elim
    | card c n =>
      have hc : c.isRequestPart = false := h.1
      simp [Stretch.wrap, Stretch.write, placed, hc]

/-- Inside the section the marks are taken out and nothing is put in. -/
theorem replace_flat (id : Text) (hL : ∀ s ∈ L, s.Replaced) (t : Text) :
    Text.replace requestMark [] (flat L ++ t) = wrapped id true true L ++ Text.replace requestMark [] t := by
  have hkeep {s : Text} (hs : '<' ∉ s) (t : Text) :
      Text.replace requestMark [] (s ++ t) = s ++ Text.replace requestMark [] t :=
    Text.replace_append (clear_mark_of_notMem hs t)
  have hmark (t : Text) : Text.replace requestMark [] (requestMark ++ t) = Text.replace requestMark [] t := by
    rw [Text.replace_self (by decide), List.nil_append]
  induction L with
  | nil => rfl
  | cons s L ih =>
    obtain ⟨hs, hrest⟩ := List.forall_mem_cons.1 hL
    rw [flat_cons, wrapped, List.append_assoc, List.append_assoc, Bool.or_true, Bool.true_or]
    cases s with
    | plain u =>
      rw [← ih hrest]
      exact Text.replace_append (hs _)
    | tag u => exact hs.elim
    | card c n =>
      cases hc : c.isRequestPart with
      | false =>
        simp only [Stretch.write, placed, Stretch.wrap, hc]
        rw [← ih hrest]
        exact hkeep (notMem_place n) _
      | true =>
        simp only [Stretch.write, placed_request hc, Stretch.wrap, hc, if_true, List.append_assoc, List.nil_append]
        rw [hkeep (by decide), hmark, hkeep (notMem_place n), hmark, hkeep (by decide), ih hrest]

/-- A text is cut at its last mark. -/
theorem cutLast?_append (x : Text) {y : Text} (h : ¬ requestMark <:+: y) :
    cutLast? requestMark (x ++ (requestMark ++ y)) = some (x, y) := by
  have hrev : (x ++ (requestMark ++ y)).reverse = y.reverse ++ (requestMark.reverse ++ x.reverse) := by simp
  have hfree : ¬ requestMark.reverse <:+: y.reverse := fun hi => h (List.reverse_infix.1 hi)
  -- Seen from behind the mark begins with the bracket, which occurs in it only once.
  obtain ⟨u, hu, hbracket⟩ : ∃ u, requestMark.reverse = '>' :: u ∧ '>' ∉ u :=
    ⟨requestMark.reverse.tail, by decide, by decide⟩
  have hclear : Clear requestMark.reverse y.reverse (requestMark.reverse ++ x.reverse) := by
    rw [hu] at hfree ⊢
    exact Text.clear_of_infix_free hfree (by simpa using hbracket)
  rw [cutLast?, hrev, Text.cut?_append hclear]
  simp

theorem exists_first (h : hasRequest L = true) :
    ∃ A s B, L = A ++ s :: B ∧ s.isRequest = true ∧ hasRequest A = false := by
  induction L with
  | nil => cases h
  | cons s L ih =>
    cases hs : s.isRequest with
    | true => exact ⟨[], s, L, rfl, hs, rfl⟩
    | false =>
      rw [hasRequest_cons, hs] at h
      obtain ⟨A, u, B, rfl, hu, hA⟩ := ih h
      exact ⟨s :: A, u, B, rfl, hu, by rw [hasRequest_cons, hs, hA]; rfl⟩

theorem exists_last (h : hasRequest L = true) :
    ∃ A s B, L = A ++ s :: B ∧ s.isRequest = true ∧ hasRequest B = false := by
  induction L with
  | nil => cases h
  | cons s L ih =>
    cases hL : hasRequest L with
    | true =>
      obtain ⟨A, u, B, rfl, hu, hB⟩ := ih hL
      exact ⟨s :: A, u, B, rfl, hu, hB⟩
    | false =>
      rw [hasRequest_cons, hL, Bool.or_false] at h
      exact ⟨[], s, L, rfl, h, hL⟩

/-- From the first mark on: the last mark ends the section behind the card in front of it. -/
theorem cutLast?_flat (id : Text) (n : Nat) (hL : ∀ s ∈ L, s.Replaced) :
    ∃ inner after, cutLast? requestMark (Shelf.place n ++ (requestMark ++ (gap ++ flat L))) = some (inner, after) ∧
      Text.replace requestMark [] inner ++ (sectionEnd ++ after) =
        Shelf.place n ++ ((if hasRequest L then [] else sectionEnd) ++ (gap ++ wrapped id true false L)) := by
  have hfree (x : Text) (hx : '<' ∉ x) : Text.replace requestMark [] x = x :=
    Text.replace_of_infix_free fun h => hx (h.subset List.mem_cons_self)
  have hgap : '<' ∉ gap := by decide
  -- Behind the last mark there is none.
  have hbehind {B : List Stretch} (hB : ∀ s ∈ B, s.Replaced) (hnone : hasRequest B = false) :
      ¬ requestMark <:+: gap ++ flat B :=
    Clear.infix_free (by decide) ((clear_mark_of_notMem hgap _).append (clear_flat hB hnone []))
  cases h : hasRequest L with
  | false =>
    refine ⟨Shelf.place n, gap ++ flat L, cutLast?_append _ (hbehind hL h), ?_⟩
    rw [hfree _ (notMem_place n), wrapped_of_not_hasRequest hL h]
    simp
  | true =>
    obtain ⟨A, s, B, rfl, hs, hB⟩ := exists_last h
    obtain ⟨hA, hsB⟩ := List.forall_mem_append.1 hL
    obtain ⟨hone, hrest⟩ := List.forall_mem_cons.1 hsB
    obtain ⟨c, m, rfl, hc⟩ := exists_card hs hone
    have htext : Shelf.place n ++ (requestMark ++ (gap ++ flat (A ++ .card c m :: B))) =
        (Shelf.place n ++ (requestMark ++ (gap ++ (flat A ++ (gap ++ (requestMark ++ Shelf.place m)))))) ++
          (requestMark ++ (gap ++ flat B)) := by
      rw [flat_append, flat_cons, Stretch.write, placed_request hc]
      simp only [List.append_assoc]
    refine ⟨_, _, htext ▸ cutLast?_append _ (hbehind hrest hB), ?_⟩
    have hkeep {s : Text} (hs : '<' ∉ s) (t : Text) :
        Text.replace requestMark [] (s ++ t) = s ++ Text.replace requestMark [] t :=
      Text.replace_append (clear_mark_of_notMem hs t)
    have hmark (t : Text) : Text.replace requestMark [] (requestMark ++ t) = Text.replace requestMark [] t := by
      rw [Text.replace_self (by decide), List.nil_append]
    rw [hkeep (notMem_place n), hmark, hkeep hgap, replace_flat id hA, hkeep hgap, hmark, hfree _ (notMem_place m),
      wrapped_append, wrapped, hasRequest_cons, Stretch.wrap, if_pos hc, hB, wrapped_of_not_hasRequest hrest hB]
    simp [Stretch.isRequest, hc]

theorem wrapRequest_cut {before rest inner after : Text} (hcut : Text.cut? requestMark t = some (before, rest))
    (hlast : cutLast? requestMark rest = some (inner, after)) (ids : IdSupply) :
    (wrapRequest t).run ids =
      (before ++ (sectionStart (IdSupply.id "request" (ids.count "request" + 1)) ++
        (Text.replace requestMark [] inner ++ (sectionEnd ++ after))), (IdSupply.draw "request" ids).2) := by
  have hsection (id x : Text) : before ++ "\n\n" ++ requestOpening id ++ "\n" ++ x ++ "\n\n</div>\n\n" ++ after =
      before ++ (sectionStart id ++ (x ++ (sectionEnd ++ after))) := by
    unfold sectionStart sectionEnd gap
    simp only [List.append_assoc]
  rw [wrapRequest, hcut, ← hsection]
  simp only [hlast, Option.getD_some]
  rfl

/-- The section of the request is put around the cards that describe it. -/
theorem wrapRequest_flat (hL : ∀ s ∈ L, s.Replaced) (ids : IdSupply) :
    ∃ k ids', (wrapRequest (flat L)).run ids = (wrapped (IdSupply.id "request" k) false false L, ids') := by
  cases h : hasRequest L with
  | false =>
    have hcut : Text.cut? requestMark (flat L) = none :=
      Text.cut?_eq_none_iff.2 ((clear_flat hL h []).infix_free (by decide))
    refine ⟨0, ids, ?_⟩
    rw [wrapped_of_not_hasRequest hL h, wrapRequest, hcut]
    rfl
  | true =>
    obtain ⟨A, s, B, rfl, hs, hA⟩ := exists_first h
    obtain ⟨hbefore, hsB⟩ := List.forall_mem_append.1 hL
    obtain ⟨hone, hB⟩ := List.forall_mem_cons.1 hsB
    obtain ⟨c, n, rfl, hc⟩ := exists_card hs hone
    have htext : flat (A ++ .card c n :: B) =
        (flat A ++ gap) ++ (requestMark ++ (Shelf.place n ++ (requestMark ++ (gap ++ flat B)))) := by
      rw [flat_append, flat_cons, Stretch.write, placed_request hc]
      simp only [List.append_assoc]
    have hcut := Text.cut?_append ((clear_flat hbefore hA _).append (clear_mark_of_notMem (t := gap) (by decide)
      (requestMark ++ (Shelf.place n ++ (requestMark ++ (gap ++ flat B))))))
    obtain ⟨inner, after, hlast, hsection⟩ := cutLast?_flat (IdSupply.id "request" (ids.count "request" + 1)) n hB
    refine ⟨ids.count "request" + 1, (IdSupply.draw "request" ids).2, ?_⟩
    have hwrapped : wrapped (IdSupply.id "request" (ids.count "request" + 1)) false false (A ++ .card c n :: B) =
        flat A ++ (gap ++ (sectionStart (IdSupply.id "request" (ids.count "request" + 1)) ++
          (Text.replace requestMark [] inner ++ (sectionEnd ++ after)))) := by
      rw [hsection, wrapped_append, wrapped_of_not_hasRequest hbefore hA, hA, wrapped, Stretch.wrap, if_pos hc]
      simp [Stretch.isRequest, hc]
    rw [hwrapped, htext, wrapRequest_cut hcut hlast ids, List.append_assoc]

/-- The cards of a document and the section around those of the request. -/
theorem placeComponents_flat (hL : ∀ s ∈ L, s.Sound maxDepth) (w : Work) :
    ∃ L' k w', (placeComponents maxDepth (flat L)).run w =
        (wrapped (IdSupply.id "request" k) false false L', w') ∧
      L'.map Stretch.outline = L.map Stretch.outline ∧ (∀ s ∈ L', s.Replaced) ∧
      w'.shelf.size = w.shelf.size + L.countP Stretch.isTag := by
  obtain ⟨L', w', hrun, houtline, hsound, htags, hsize⟩ := placeKinds_flat Component.all hL w
  have hnone (t : Tag) : .tag t ∉ L' := fun ht => by
    have hall : t.component ∈ Component.all := by cases t.component <;> decide
    exact (htags t ht).2 hall
  have hreplaced : ∀ s ∈ L', s.Replaced := by
    intro s hs
    cases s with
    | plain u => exact (hsound _ hs).2
    | tag t => exact hnone t hs
    | card c n => trivial
  obtain ⟨k, ids, hwrap⟩ := wrapRequest_flat hreplaced w'.ids
  refine ⟨L', k, { w' with ids }, ?_, houtline, hreplaced, ?_⟩
  · rw [placeComponents, StateT.run_bind, hrun]
    exact congrArg (fun r : Text × IdSupply => (r.1, { w' with ids := r.2 })) hwrap
  · have hcount : L'.countP Stretch.isTag = 0 := List.countP_eq_zero.2 fun s hs => by
      cases s with
      | tag t => exact absurd hs (hnone t)
      | _ => simp [Stretch.isTag]
    rw [hcount, Nat.add_zero] at hsize
    exact hsize

end

end DocPages.Api
