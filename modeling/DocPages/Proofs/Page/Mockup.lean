import DocPages.Proofs.Api.Section
import DocPages.Proofs.Html.Divisions
import DocPages.Proofs.Page.Leftover
import DocPages.Proofs.Page.Silent

/-!
# Mockups around a request

A document of paragraphs, tags of the API reference and mockups that hold paragraphs and tags. The section of the
request is put around its cards before the mockups are cut out. So a mockup that holds a part of the request holds the
beginning of the section unless such a part stands before it, and the end unless one stands behind it; it closes what it
opens exactly if both or neither is the case.
-/

namespace DocPages.Markup

open DocPages.Api (Stretch flat wrapped)
open DocPages.Text (Clear Severed)

/-- A tag that shows as a card and whose payload holds no mark of an earlier pass. -/
structure ShownTag (maxDepth : Int) extends Api.Tag where
  reads : Json.parse? payload = some value
  shows : ((component.render maxDepth value).run IdSupply.fresh).1.isSome
  calm : Api.Calm payload
  silent : Silent earlierMarks payload

/-- A paragraph, a line break or a tag. -/
inductive Leaf (maxDepth : Int) where
  | words (p : Phrase)
  | gap
  | tag (t : ShownTag maxDepth)

/-- A leaf, or a mockup with its attributes and content. -/
inductive Node (maxDepth : Int) where
  | leaf (l : Leaf maxDepth)
  | mockup (as : List Attribute) (content : List (Leaf maxDepth))

variable {maxDepth : Int}

def Leaf.stretch : Leaf maxDepth → Stretch
  | words p => .plain p.text
  | gap => .plain ['\n']
  | tag t => .tag t.toTag

def mockupStart (as : List Attribute) : Text :=
  Element.startTag "BrowserMockup" ++ (as.flatMap Attribute.write ++ ['>'])

def mockupEnd : Text := Element.endTag "BrowserMockup"

def Node.stretches : Node maxDepth → List Stretch
  | leaf l => [l.stretch]
  | mockup as content => .plain (mockupStart as) :: (content.map Leaf.stretch ++ [.plain mockupEnd])

def Node.isMockup : Node maxDepth → Bool
  | leaf _ => false
  | mockup _ _ => true

/-- The stretches of a document. -/
def stretches (ns : List (Node maxDepth)) : List Stretch := ns.flatMap Node.stretches

/-- The text of a document. -/
def textOf (ns : List (Node maxDepth)) : Text := flat (stretches ns)

/-- The number of tags in a document, inside mockups and outside. -/
def tagsIn (ns : List (Node maxDepth)) : Nat := (stretches ns).countP Stretch.isTag

/-- A tag that describes the request stands in the document. -/
def asks (ns : List (Node maxDepth)) : Bool := Api.hasRequest (stretches ns)

/-- A tag that describes the request stands in the mockup. -/
def asksInside (content : List (Leaf maxDepth)) : Bool := Api.hasRequest (content.map Leaf.stretch)

/-! ## Marks in the stretches -/

/-- The part begins like a mark, and the texts of the section neither hold it nor end with its beginning. -/
def Inert (part : Text) : Prop :=
  (part.take 1 ∈ [['<'], [':'], ['\x60'], ['~'], ['!']] ∨ ['N', 'o'] <+: part) ∧
    ∀ s ∈ [("<div class=\"doc-api-section doc-api-request\">\n<h2 id=\"" : Text), "\">Request</h2>\n", "\n", Api.gap,
      Api.sectionEnd], Severed part s ∧ ¬ part <:+: s

instance (part : Text) : Decidable (Inert part) := inferInstanceAs (Decidable (_ ∧ _))

theorem inert_marks : ∀ part ∈ earlierMarks ++ laterMarks, Inert part := by decide +kernel

theorem inert_mockupEnd : Inert mockupEnd := by decide

theorem apart_earlierMarks : ∀ part ∈ earlierMarks, Apart part .browserMockup := by decide

section
variable {D : Finset Kind} {part t : Text} {s : Stretch} {L M : List Stretch} {b a : Bool}

theorem Inert.exists_cons (h : Inert part) : ∃ c u, part = c :: u ∧
    (c ∈ ['<', ':', '\x60', '~', '!'] ∨ c = 'N' ∧ ['N', 'o'] <+: part) := by
  rcases h.1 with hmark | hno
  · cases part with
    | nil => simp at hmark
    | cons c u => exact ⟨c, u, rfl, .inl (by simpa using hmark)⟩
  · obtain ⟨u, rfl⟩ := hno
    exact ⟨'N', 'o' :: u, rfl, .inr ⟨rfl, List.prefix_append _ _⟩⟩

theorem Inert.ne_nil (h : Inert part) : part ≠ [] := by
  obtain ⟨c, u, rfl, -⟩ := h.exists_cons
  simp

/-- A longer part is met at no place where a beginning of it is not. -/
theorem clear_of_prefix {part' r : Text} (h : Clear part t r) (hpart : part <+: part') : Clear part' t r := by
  rw [Text.clear_iff] at h ⊢
  exact fun a b hab hb hfront => h a b hab hb (hpart.trans hfront)

theorem Made.clear_inert (h : Made D t) (hpart : Inert part) (hapart : ∀ k ∈ D, Apart part k) (r : Text) :
    Clear part t r := by
  obtain ⟨c, u, rfl, hc | ⟨rfl, hno⟩⟩ := hpart.exists_cons
  · have hmarks : ∀ c ∈ ['<', ':', '\x60', '~', '!'], c ∈ marks := by decide
    exact h.clear (List.mem_cons_of_mem _ (hmarks c hc)) (clear_token (hmarks c hc)) hapart r
  · have hkind (k : Kind) : Apart ['N', 'o'] k := by cases k <;> decide
    exact clear_of_prefix (h.clear (by decide) clear_no_token (fun k _ => hkind k) r) hno

theorem clear_place (hpart : Inert part) (n : Nat) (r : Text) : Clear part (Shelf.place n) r :=
  (Made.ofPlace n).clear_inert (D := ∅) hpart (by simp) r

/-- The name of the section is made of other letters than marks begin with. -/
theorem clear_requestId (hpart : Inert part) (k : Nat) (r : Text) : Clear part (IdSupply.id "request" k) r := by
  obtain ⟨c, u, rfl, hc⟩ := hpart.exists_cons
  have hmark : c ∈ ['<', ':', '\x60', '~', '!', 'N'] := by
    rcases hc with hc | ⟨rfl, -⟩
    · exact List.mem_append_left ['N'] hc
    · decide
  have hplain : ∀ c ∈ ['<', ':', '\x60', '~', '!', 'N'], c ∉ "request-".toList ∧ c.isDigit = false := by decide
  obtain ⟨hword, hdigit⟩ := hplain c hmark
  have hid : IdSupply.id "request" k = "request-" ++ Text.ofNat k := rfl
  rw [hid]
  refine Text.clear_of_notMem (fun hmem => ?_) r
  rcases List.mem_append.1 hmem with hmem | hmem
  · exact hword hmem
  · rw [Text.isDigit_of_mem_ofNat hmem] at hdigit
    cases hdigit

theorem clear_sectionStart (hpart : Inert part) (k : Nat) (r : Text) :
    Clear part (Api.sectionStart (IdSupply.id "request" k)) r := by
  obtain ⟨hopening, hheading, hbreak, hgap, -⟩ := by
    simpa only [List.forall_mem_cons] using hpart.2
  have hsection : Api.sectionStart (IdSupply.id "request" k) =
      Api.gap ++ ((("<div class=\"doc-api-section doc-api-request\">\n<h2 id=\"" ++ IdSupply.id "request" k) ++
        "\">Request</h2>\n") ++ "\n") := rfl
  rw [hsection]
  exact (hgap.1.clear hgap.2 _).append ((((hopening.1.clear hopening.2 _).append (clear_requestId hpart k _)).append
    (hheading.1.clear hheading.2 _)).append (hbreak.1.clear hbreak.2 r))

theorem clear_wrap (hpart : Inert part) (hs : s.Replaced) (hplain : ∀ u, s = .plain u → ∀ r, Clear part u r) (k : Nat)
    (b a : Bool) (r : Text) : Clear part (s.wrap (IdSupply.id "request" k) b a) r := by
  obtain ⟨-, -, -, hgap, hend, -⟩ := by
    simpa only [List.forall_mem_cons] using hpart.2
  cases s with
  | plain u => exact hplain u rfl r
  | tag t => exact hs.elim
  | card c n =>
    rw [Stretch.wrap]
    split
    · refine (hgap.1.clear hgap.2 _).append (.append ?_ ((clear_place hpart n _).append (.append ?_ (hgap.1.clear hgap.2 r))))
      · split
        · exact .nil _ _
        · exact clear_sectionStart hpart k _
      · split
        · exact .nil _ _
        · exact hend.1.clear hend.2 _
    · exact clear_place hpart n r

theorem clear_wrapped (hpart : Inert part) (hL : ∀ s ∈ L, s.Replaced)
    (hplain : ∀ u, .plain u ∈ L → ∀ r, Clear part u r) (k : Nat) (b a : Bool) (r : Text) :
    Clear part (wrapped (IdSupply.id "request" k) b a L) r := by
  induction L generalizing b with
  | nil => exact .nil _ r
  | cons s L ih =>
    obtain ⟨hs, hL⟩ := List.forall_mem_cons.1 hL
    have hfront := clear_wrap hpart hs (fun u hu => hplain u (hu ▸ List.mem_cons_self)) k b (Api.hasRequest L || a)
    exact (hfront _).append (ih hL (fun u hu => hplain u (List.mem_cons_of_mem s hu)) _)

/-! ## The text of a document -/

theorem clear_flat (hL : ∀ s ∈ L, ∀ r, Clear part s.write r) (r : Text) : Clear part (flat L) r := by
  induction L with
  | nil => exact .nil _ r
  | cons s L ih =>
    obtain ⟨hs, hL⟩ := List.forall_mem_cons.1 hL
    rw [Api.flat_cons]
    exact (hs _).append (ih hL)

theorem tag_earlierMarks : ∀ part ∈ earlierMarks, '\x7d' ∉ part ∧ Severed part "\x7d />" ∧ ¬ part <:+: ("\x7d />" : Text) ∧
    ∀ c ∈ Api.Component.all, Severed part (Api.openTag c ++ (' ' :: c.attr ++ ['=', '\x7b'])) ∧
      ¬ part <:+: Api.openTag c ++ (' ' :: c.attr ++ ['=', '\x7b']) := by decide

/-- The marks do not cross the braces around a payload. -/
theorem clear_tag (hpart : part ∈ earlierMarks) (u : ShownTag maxDepth) (r : Text) : Clear part u.toTag.write r := by
  obtain ⟨hbrace, hend, hend', hfront⟩ := tag_earlierMarks part hpart
  have hall : u.component ∈ Api.Component.all := by cases u.component <;> decide
  obtain ⟨hopen, hopen'⟩ := hfront _ hall
  have hpayload (r : Text) : Clear part u.payload ("\x7d />" ++ r) := by
    have hfree := u.silent part hpart
    obtain ⟨c, v, rfl, -⟩ := (inert_marks part (List.mem_append_left _ hpart)).exists_cons
    refine Text.clear_of_infix_free hfree fun d hd => ?_
    obtain rfl : '\x7d' = d := by simpa using hd
    exact fun hmem => hbrace (List.mem_cons_of_mem c hmem)
  exact ((hopen.clear hopen' _).append (hpayload r)).append (hend.clear hend' r)

theorem Leaf.stretch_cases (l : Leaf maxDepth) :
    (∃ u, l.stretch = .plain u ∧ Made ∅ u) ∨ ∃ t : ShownTag maxDepth, l.stretch = .tag t.toTag := by
  cases l with
  | words p => exact .inl ⟨_, rfl, .ofPhrase p⟩
  | gap => exact .inl ⟨_, rfl, .gap .nil⟩
  | tag t => exact .inr ⟨t, rfl⟩

theorem stretch_cases {ns : List (Node maxDepth)} (h : s ∈ stretches ns) :
    (∃ u, s = .plain u ∧ Made {.browserMockup} u) ∨ ∃ t : ShownTag maxDepth, s = .tag t.toTag := by
  have hkind : Kind.browserMockup ∈ ({.browserMockup} : Finset Kind) := by simp
  have hleaf (l : Leaf maxDepth) : (∃ u, l.stretch = .plain u ∧ Made {.browserMockup} u) ∨
      ∃ t : ShownTag maxDepth, l.stretch = .tag t.toTag :=
    l.stretch_cases.imp_left fun ⟨u, hu, hmade⟩ => ⟨u, hu, hmade.mono (Finset.empty_subset _)⟩
  obtain ⟨n, -, hn⟩ := List.mem_flatMap.1 h
  cases n with
  | leaf l =>
    obtain rfl := List.mem_singleton.1 hn
    exact hleaf l
  | mockup as content =>
    rcases List.mem_cons.1 hn with rfl | hn
    · exact .inl ⟨_, rfl, .attributes .browserMockup as hkind⟩
    · rcases List.mem_append.1 hn with hn | hn
      · obtain ⟨l, -, rfl⟩ := List.mem_map.1 hn
        exact hleaf l
      · obtain rfl := List.mem_singleton.1 hn
        exact .inl ⟨_, rfl, .endLine hkind⟩

theorem sound_stretches (ns : List (Node maxDepth)) : ∀ s ∈ stretches ns, s.Sound maxDepth := by
  intro s hs
  rcases stretch_cases hs with ⟨u, rfl, hmade⟩ | ⟨t, rfl⟩
  · exact ⟨fun c r => hmade.clear_foreign (by cases c <;> decide) r, fun r => hmade.clear_foreign (by decide) r⟩
  · exact ⟨t.reads, t.shows, t.calm, Api.calm_of_notMem (by simp [Api.Tag.bare])⟩

/-- No pass in front of those for the API reference has anything to do in a document. -/
theorem silent_textOf (ns : List (Node maxDepth)) : Silent earlierMarks (textOf ns) := by
  intro part hpart
  have hinert := inert_marks part (List.mem_append_left _ hpart)
  refine Clear.infix_free hinert.ne_nil (clear_flat (fun s hs r => ?_) [])
  rcases stretch_cases hs with ⟨u, rfl, hmade⟩ | ⟨t, rfl⟩
  · exact hmade.clear_inert hinert (fun k hk => Finset.mem_singleton.1 hk ▸ apart_earlierMarks part hpart) r
  · exact clear_tag hpart t r

/-! ## The pass for mockups -/

theorem stretches_mockup (as : List Attribute) (content : List (Leaf maxDepth)) (ns : List (Node maxDepth)) :
    stretches (.mockup as content :: ns) =
      .plain (mockupStart as) :: (content.map Leaf.stretch ++ .plain mockupEnd :: stretches ns) := by
  simp [stretches, Node.stretches]

/-- What a mockup becomes: its template around the echo of its content, in which tags have been replaced and the section
has been put around the request. -/
def Framed (k : Nat) (before behind : Bool) (as : List Attribute) (content : List (Leaf maxDepth)) (block : Text) : Prop :=
  ∃ M : List Stretch, (∀ s ∈ M, s.Replaced) ∧ M.map Stretch.outline = (content.map Leaf.stretch).map Stretch.outline ∧
    block = (Element.browserMockup (entries as)
      (echo (Text.strip (wrapped (IdSupply.id "request" k) before behind M)))).write

/-- One block for each mockup, in their order. -/
inductive Frames (k : Nat) : Bool → List (Node maxDepth) → List Text → Prop
  | nil (b : Bool) : Frames k b [] []
  | leaf {b : Bool} {ns : List (Node maxDepth)} {bs : List Text} (l : Leaf maxDepth)
      (h : Frames k (b || l.stretch.isRequest) ns bs) : Frames k b (.leaf l :: ns) bs
  | mockup {b : Bool} {ns : List (Node maxDepth)} {bs : List Text} {as : List Attribute}
      {content : List (Leaf maxDepth)} {block : Text} (hb : Framed k b (asks ns) as content block)
      (h : Frames k (b || asksInside content) ns bs) : Frames k b (.mockup as content :: ns) (block :: bs)

theorem made_content {content : List (Leaf maxDepth)}
    (h : M.map Stretch.outline = (content.map Leaf.stretch).map Stretch.outline) {u : Text} (hu : .plain u ∈ M) :
    Made ∅ u := by
  obtain ⟨l, -, hl⟩ := List.mem_map.1 (Api.plain_mem_of_outline h hu)
  rcases l.stretch_cases with ⟨v, hv, hmade⟩ | ⟨t, ht⟩
  · obtain rfl : v = u := Stretch.plain.inj (hv.symm.trans hl)
    exact hmade
  · rw [ht] at hl
    cases hl

/-- Whatever is inert is not met in the content of a mockup. -/
theorem clear_content {content : List (Leaf maxDepth)} (hpart : Inert part) (hM : ∀ s ∈ M, s.Replaced)
    (h : M.map Stretch.outline = (content.map Leaf.stretch).map Stretch.outline) (k : Nat) (b a : Bool) (r : Text) :
    Clear part (wrapped (IdSupply.id "request" k) b a M) r :=
  clear_wrapped hpart hM (fun _ hu => (made_content h hu).clear_inert hpart (by simp)) k b a r

/-- The pass for mockups, where `inner` renders what they hold. -/
def mockupPass (inner : Text → StateM Work Text) : Text → StateM Work Text :=
  Renderer.shelveAll (Element.described? "BrowserMockup")
    fun e => return Element.browserMockup e.attributes (← inner e.body)

/-- A mockup in front is put on the shelf, and then the rest is searched. -/
theorem mockupPass_front {inner : Text → StateM Work Text} {body : Text} (hbody : ∀ r, Clear mockupEnd body r)
    (hinner : inner body = pure (echo (Text.strip body))) (as : List Attribute) (rest : Text) (w : Work) :
    ((mockupPass inner ((mockupStart as ++ (body ++ mockupEnd)) ++ rest)).run w).2 =
      ((mockupPass inner rest).run
        ((Work.shelve (Element.browserMockup (entries as) (echo (Text.strip body))).write).run w).2).2 := by
  have hread := @described?_write "BrowserMockup" body rest as (hbody _)
  have hne : mockupStart as ++ (body ++ mockupEnd) ≠ [] := by simp [mockupStart, Element.startTag]
  rw [mockupPass, Renderer.shelveAll,
    Text.mapFoundM_front hne (by simpa only [mockupStart, mockupEnd, List.append_assoc] using hread)]
  simp only [hinner, pure_bind]
  rw [Work.run_bind, Work.run_bind_pure]
  rfl

section
variable {inner : Text → StateM Work Text} {k : Nat}

/-- What stands outside the mockups is passed over. -/
theorem mockupPass_leaf {l : Leaf maxDepth} (hs : s.outline = l.stretch.outline) (hr : s.Replaced) (b : Bool) (w : Work) :
    ((mockupPass inner (wrapped (IdSupply.id "request" k) b false (s :: L))).run w).2 =
      ((mockupPass inner (wrapped (IdSupply.id "request" k) (b || s.isRequest) false L)).run w).2 := by
  have hstart : Inert (Element.startTag "BrowserMockup") := inert_marks _ (by decide)
  have hout : [s].map Stretch.outline = ([l].map Leaf.stretch).map Stretch.outline := by simp [hs]
  have hplain (u : Text) (hu : s = .plain u) (r : Text) : Clear (Element.startTag "BrowserMockup") u r :=
    (made_content hout (hu ▸ List.mem_singleton_self s)).clear_inert hstart (by simp) r
  have hfree := Text.refused_of_clear (begins_described "BrowserMockup")
    (clear_wrap hstart hr hplain k b (Api.hasRequest L || false)
      (wrapped (IdSupply.id "request" k) (b || s.isRequest) false L))
  rw [wrapped, mockupPass, Renderer.shelveAll, Text.mapFoundM_append hfree, StateT.run_map]
  rfl

section
variable (hinner : ∀ t, Silent (earlierMarks ++ laterMarks) t → inner t = pure (echo (Text.strip t)))
include hinner

/-- A mockup is put on the shelf with the echo of its content. -/
theorem mockupPass_mockup {content : List (Leaf maxDepth)} (hMr : ∀ s ∈ M, s.Replaced)
    (hM : M.map Stretch.outline = (content.map Leaf.stretch).map Stretch.outline) (as : List Attribute) (b : Bool) (w : Work) :
    ((mockupPass inner (wrapped (IdSupply.id "request" k) b false
        (.plain (mockupStart as) :: (M ++ .plain mockupEnd :: L)))).run w).2 =
      ((mockupPass inner (wrapped (IdSupply.id "request" k) (b || asksInside content) false L)).run
        ((Work.shelve (Element.browserMockup (entries as)
          (echo (Text.strip (wrapped (IdSupply.id "request" k) b (Api.hasRequest L) M)))).write).run w).2).2 := by
  have hinside : Api.hasRequest M = asksInside content := Api.hasRequest_of_outline hM
  have hclear (part : Text) (hpart : Inert part) (r : Text) := clear_content hpart hMr hM k b (Api.hasRequest L) r
  have hsilent : Silent (earlierMarks ++ laterMarks) (wrapped (IdSupply.id "request" k) b (Api.hasRequest L) M) :=
    fun part hpart => Clear.infix_free (inert_marks part hpart).ne_nil (hclear part (inert_marks part hpart) [])
  -- The text is the first line, the content, the last line and the rest.
  have htext : wrapped (IdSupply.id "request" k) b false (.plain (mockupStart as) :: (M ++ .plain mockupEnd :: L)) =
      (mockupStart as ++ (wrapped (IdSupply.id "request" k) b (Api.hasRequest L) M ++ mockupEnd)) ++
        wrapped (IdSupply.id "request" k) (b || asksInside content) false L := by
    rw [Api.wrapped_plain, Api.wrapped_append, Api.wrapped_plain, Api.hasRequest_cons, hinside]
    simp [Stretch.isRequest]
  rw [htext, mockupPass_front (hclear mockupEnd inert_mockupEnd) (hinner _ hsilent)]

/-- The pass over a document puts a block on the shelf for each mockup. -/
theorem frames_pass {ns : List (Node maxDepth)} (hL : ∀ s ∈ L, s.Replaced)
    (hout : L.map Stretch.outline = (stretches ns).map Stretch.outline) (b : Bool) (w : Work) :
    ∃ bs, ((mockupPass inner (wrapped (IdSupply.id "request" k) b false L)).run w).2.shelf.blocks =
      w.shelf.blocks ++ bs ∧ Frames k b ns bs := by
  induction ns generalizing L b w with
  | nil =>
    obtain rfl : L = [] := List.map_eq_nil_iff.1 hout
    exact ⟨[], (List.append_nil _).symm, .nil b⟩
  | cons n ns ih =>
    cases n with
    | leaf l =>
      obtain ⟨s, L, rfl, hs, hrest⟩ := List.map_eq_cons_iff.1 hout
      obtain ⟨hone, hL⟩ := List.forall_mem_cons.1 hL
      have hask : s.isRequest = l.stretch.isRequest := by
        rw [← Api.isRequest_outline s, hs, Api.isRequest_outline]
      obtain ⟨bs, hblocks, hframes⟩ := ih hL hrest (b || s.isRequest) w
      refine ⟨bs, ?_, .leaf l (hask ▸ hframes)⟩
      rw [mockupPass_leaf hs hone, hblocks]
    | mockup as content =>
      rw [stretches_mockup, List.map_cons, List.map_append, List.map_cons] at hout
      obtain ⟨s, N, rfl, hs, hN⟩ := List.map_eq_cons_iff.1 hout
      obtain ⟨M, K, rfl, hM, hK⟩ := List.map_eq_append_iff.1 hN
      obtain ⟨s', L, rfl, hs', hrest⟩ := List.map_eq_cons_iff.1 hK
      obtain rfl := Api.eq_plain_of_outline hs
      obtain rfl := Api.eq_plain_of_outline hs'
      obtain ⟨hMr, hK⟩ := List.forall_mem_append.1 (List.forall_mem_cons.1 hL).2
      have hLr := (List.forall_mem_cons.1 hK).2
      have hbehind : Api.hasRequest L = asks ns := Api.hasRequest_of_outline hrest
      obtain ⟨bs, hblocks, hframes⟩ := ih hLr hrest (b || asksInside content) _
      refine ⟨_ :: bs, ?_, .mockup ⟨M, hMr, hM, rfl⟩ hframes⟩
      rw [mockupPass_mockup hinner hMr hM, hblocks, hbehind]
      exact List.append_assoc _ _ _

end

end

/-! ## Counting -/

theorem Made.lt_notMem {t : Text} (h : Made ∅ t) : '<' ∉ t := fun hmem =>
  (h.clear (by decide) (clear_token (by decide)) (by simp) []).infix_free (by simp)
    ((List.singleton_infix_iff '<' t).2 hmem)

theorem counted_sectionStart (k : Nat) : Counted (Api.sectionStart (IdSupply.id "request" k)) 1 0 := by
  have hid : '<' ∉ IdSupply.id "request" k := fun hmem => by
    have hword : IdSupply.id "request" k = "request-" ++ Text.ofNat k := rfl
    rw [hword] at hmem
    rcases List.mem_append.1 hmem with hmem | hmem
    · exact absurd hmem (by decide)
    · exact absurd (Text.isDigit_of_mem_ofNat hmem) (by decide)
  have hopening : Counted "<div class=\"doc-api-section doc-api-request\">\n<h2 id=\"" 1 0 :=
    ⟨by decide, by decide, by decide, by decide⟩
  have hheading : Counted "\">Request</h2>\n" 0 0 :=
    ⟨by decide, by decide, by decide, by decide⟩
  have hgap : Counted Api.gap 0 0 := .of_notMem (by decide)
  have hbreak : Counted "\n" 0 0 := .of_notMem (by decide)
  exact hgap.append (((hopening.append (.of_notMem hid)).append hheading).append hbreak)

/-- The section opens once in a row of stretches that hold its first part, and ends once in one that holds its last. -/
theorem counted_wrapped (hL : ∀ s ∈ L, s.Replaced) (hplain : ∀ u, .plain u ∈ L → '<' ∉ u) (k : Nat) (b a : Bool) :
    Counted (wrapped (IdSupply.id "request" k) b a L) (Api.hasRequest L && !b).toNat (Api.hasRequest L && !a).toNat := by
  induction L generalizing b with
  | nil => exact .of_notMem (by simp [wrapped])
  | cons s L ih =>
    obtain ⟨hs, hL⟩ := List.forall_mem_cons.1 hL
    have hrest := ih hL (fun u hu => hplain u (List.mem_cons_of_mem s hu)) (b || s.isRequest)
    have hkeep (hask : s.isRequest = false) (hlt : '<' ∉ s.wrap (IdSupply.id "request" k) b (Api.hasRequest L || a)) :
        Counted (wrapped (IdSupply.id "request" k) b a (s :: L)) (Api.hasRequest (s :: L) && !b).toNat
          (Api.hasRequest (s :: L) && !a).toNat := by
      have hall := (Counted.of_notMem hlt).append hrest
      rw [wrapped, Api.hasRequest_cons, hask]
      simpa [hask] using hall
    cases s with
    | plain u => exact hkeep rfl (hplain u List.mem_cons_self)
    | tag t => exact hs.elim
    | card c n =>
      have hplace : '<' ∉ Shelf.place n := Api.notMem_place n
      cases hc : c.isRequestPart with
      | false => exact hkeep hc (by simpa [Stretch.wrap, hc] using hplace)
      | true =>
        have hgap : Counted Api.gap 0 0 := .of_notMem (by decide)
        have hstart : Counted (if b then [] else Api.sectionStart (IdSupply.id "request" k)) (!b).toNat 0 := by
          cases b with
          | true => exact .of_notMem (by simp)
          | false => exact counted_sectionStart k
        have hend : Counted (if Api.hasRequest L || a then [] else Api.sectionEnd) 0 (!(Api.hasRequest L || a)).toNat := by
          cases Api.hasRequest L || a with
          | true => exact .of_notMem (by simp)
          | false => exact ⟨by decide, by decide, by decide, by decide⟩
        have hall := (hgap.append (hstart.append ((Counted.of_notMem hplace).append (hend.append hgap)))).append hrest
        have hask : (Stretch.card c n).isRequest = true := hc
        have hm : 0 + ((!b).toNat + (0 + (0 + 0))) + (Api.hasRequest L && !(b || (Stretch.card c n).isRequest)).toNat =
            (((Stretch.card c n).isRequest || Api.hasRequest L) && !b).toNat := by simp [hask]
        have hn : 0 + (0 + (0 + ((!(Api.hasRequest L || a)).toNat + 0))) + (Api.hasRequest L && !a).toNat =
            (((Stretch.card c n).isRequest || Api.hasRequest L) && !a).toNat := by
          cases Api.hasRequest L <;> simp [hask]
        rw [hm, hn] at hall
        rw [wrapped, Stretch.wrap, if_pos hc, Api.hasRequest_cons]
        exact hall

/-- The echo of a stripped text holds the tags that the text holds. -/
theorem occurrences_echo_strip {u : Text} (hblank : ∀ c ∈ '<' :: u, isBlank c = false) (hbracket : ']' ∉ '<' :: u) (t : Text) :
    Severed ('<' :: u) (echo (Text.strip t)) ∧
      Text.occurrences ('<' :: u) (echo (Text.strip t)) = Text.occurrences ('<' :: u) t := by
  have hecho : echo (Text.strip t) = "[[md:" ++ (Text.strip t ++ "]]") := List.append_assoc _ _ _
  have hend : echo (Text.strip t) = ("[[md:" ++ (Text.strip t ++ "]")) ++ [']'] := by simp [echo]
  have hback : ∀ c ∈ ("]]" : Text), c ∉ '<' :: u := by simpa using hbracket
  refine ⟨hend ▸ Text.severed_concat hbracket _, ?_⟩
  rw [hecho, Text.occurrences_append (by simp) (Text.severed_of_notMem (by decide) u),
    Text.occurrences_of_notMem (by decide), Nat.zero_add, Text.occurrences_behind (by simp) hback,
    Text.occurrences_strip (by simp) hblank]

theorem counted_echo_strip {t : Text} {m n : Nat} (h : Counted t m n) : Counted (echo (Text.strip t)) m n := by
  obtain ⟨hstart, hopened⟩ := @occurrences_echo_strip "div" (by decide) (by decide) t
  obtain ⟨hend, hclosed⟩ := @occurrences_echo_strip "/div>" (by decide) (by decide) t
  exact ⟨hstart, hend, hopened.trans h.opened, hclosed.trans h.closed⟩

/-- What a block of a mockup opens and closes. -/
theorem Framed.counts {k : Nat} {as : List Attribute} {content : List (Leaf maxDepth)} {block : Text}
    (h : Framed k b a as content block) : ∃ inner, block = (Element.browserMockup (entries as) inner).write ∧
      opened block = (asksInside content && !b).toNat + 4 ∧ closed block = (asksInside content && !a).toNat + 4 := by
  obtain ⟨M, hM, hout, rfl⟩ := h
  have hcounted := counted_wrapped hM (fun u hu => (made_content hout hu).lt_notMem) k b a
  have hasks : Api.hasRequest M = asksInside content := Api.hasRequest_of_outline hout
  rw [hasks] at hcounted
  have hframe := (counted_echo_strip hcounted).browserMockup (entries as)
  exact ⟨_, rfl, hframe.opened, hframe.closed⟩

theorem Frames.length {k : Nat} {ns : List (Node maxDepth)} {bs : List Text} (h : Frames k b ns bs) :
    bs.length = ns.countP Node.isMockup := by
  induction h with
  | nil => rfl
  | leaf l _ ih => exact ih.trans (List.countP_cons_of_neg (by simp [Node.isMockup])).symm
  | mockup _ _ ih => exact (congrArg Nat.succ ih).trans (List.countP_cons_of_pos rfl).symm

theorem asks_leaf (l : Leaf maxDepth) (ns : List (Node maxDepth)) : asks (.leaf l :: ns) = (l.stretch.isRequest || asks ns) :=
  rfl

theorem asks_mockup (as : List Attribute) (content : List (Leaf maxDepth)) (ns : List (Node maxDepth)) :
    asks (.mockup as content :: ns) = (asksInside content || asks ns) := by
  rw [asks, stretches_mockup, Api.hasRequest_cons, Api.hasRequest_append, Api.hasRequest_cons]
  rfl

/-- The block of a mockup stands at its number among the mockups. -/
theorem Frames.getElem? {k : Nat} {before after : List (Node maxDepth)} {as : List Attribute}
    {content : List (Leaf maxDepth)} {bs : List Text} (h : Frames k b (before ++ .mockup as content :: after) bs) :
    ∃ block, bs[before.countP Node.isMockup]? = some block ∧ Framed k (b || asks before) (asks after) as content block := by
  induction before generalizing b bs with
  | nil =>
    cases h with
    | mockup hb _ => exact ⟨_, rfl, by rwa [show asks [] = false from rfl, Bool.or_false]⟩
  | cons n before ih =>
    cases h with
    | leaf l h =>
      obtain ⟨block, hblock, hframed⟩ := ih h
      refine ⟨block, ?_, ?_⟩
      · rwa [List.countP_cons_of_neg (by simp [Node.isMockup])]
      · rwa [asks_leaf, ← Bool.or_assoc]
    | mockup hb h =>
      obtain ⟨block, hblock, hframed⟩ := ih h
      refine ⟨block, ?_, ?_⟩
      · rw [List.countP_cons_of_pos rfl]
        exact hblock
      · rwa [asks_mockup, ← Bool.or_assoc]

/-! ## Pages -/

theorem head_textOf (ns : List (Node maxDepth)) : ∀ c ∈ (textOf ns).head?, c ≠ '-' := by
  have hletter {c : Char} (h : isLetter c = true) : c ≠ '-' := fun he => by
    rw [he] at h
    exact absurd h (by decide)
  intro c hc
  cases ns with
  | nil => cases hc
  | cons n ns => cases n with
    | leaf l => cases l with
      | words p =>
        obtain ⟨d, hd, hfirst⟩ := (Option.any_eq_true _ _).1 p.first
        have hhead : (textOf (.leaf (.words p) :: ns)).head? = some d := by
          rw [textOf, show stretches (.leaf (.words p) :: ns) = .plain p.text :: stretches ns from rfl, Api.flat_cons,
            Stretch.write, List.head?_append, hd]
          rfl
        obtain rfl : d = c := Option.some.inj (hhead.symm.trans hc)
        exact hletter hfirst
      | gap =>
        obtain rfl : '\n' = c := Option.some.inj hc
        decide
      | tag t =>
        obtain rfl : '<' = c := Option.some.inj hc
        decide
    | mockup as content =>
      obtain rfl : '<' = c := Option.some.inj hc
      decide

/-- The blocks of a document are the cards of its tags and then the blocks of its mockups. -/
theorem blocks_textOf (r : Renderer) {ns : List (Node r.maxDepth)} (hne : textOf ns ≠ []) :
    ∃ cards bs k, (r.echoing.page (textOf ns)).blocks = cards ++ bs ∧ cards.length = tagsIn ns ∧ Frames k false ns bs := by
  obtain ⟨L, k, w, hrun, hout, hL, hsize⟩ := Api.placeComponents_flat (sound_stretches ns) Work.fresh
  have hempty : (textOf ns).isEmpty = false := by simpa using hne
  have hgrid : Renderer.shelveAll (Element.single? "ChildGrid") (fun as => return Element.childGrid as)
      (wrapped (IdSupply.id "request" k) false false L) = pure (wrapped (IdSupply.id "request" k) false false L) := by
    have hinert : Inert (Element.startTag "ChildGrid") := inert_marks _ (by decide)
    refine Text.mapFoundM_of_refused (Text.refused_of_clear (begins_single _) (clear_wrapped hinert hL (fun u hu => ?_) k _ _ []))
    rcases stretch_cases (Api.plain_mem_of_outline hout hu) with ⟨v, hv, hmade⟩ | ⟨t, ht⟩
    · obtain rfl : u = v := Stretch.plain.inj hv
      exact hmade.clear_inert hinert (by decide)
    · cases ht
  have hinner (depth : Nat) (t : Text) (ht : Silent (earlierMarks ++ laterMarks) t) :
      r.echoing.renderWithin depth (Text.strip t) = pure (echo (Text.strip t)) :=
    (ht.of_isInfix (Text.trim_isInfix _ t)).renderWithin r.echoing depth
  obtain ⟨bs, hblocks, hframes⟩ := frames_pass (hinner (textOf ns).length) hL hout false w
  refine ⟨w.shelf.blocks, bs, k, ?_, ?_, hframes⟩
  · rw [(Renderer.page_of_not_isEmpty hempty).1, FrontMatter.split_of_head (head_textOf ns),
      Renderer.render, Renderer.renderWithin, (silent_textOf ns).artifact_strip, (silent_textOf ns).placeElements, Work.run_bind_pure, Work.run_bind]
    have hrun' : (Api.placeComponents r.echoing.maxDepth (textOf ns)).run Work.fresh = _ := hrun
    rw [hrun', Work.run_bind]
    dsimp only
    rw [hgrid]
    exact hblocks
  · simpa [tagsIn, Shelf.size, Work.fresh, Shelf.empty] using hsize

end

/-- A mockup closes as many divisions as it opens exactly if it holds no part of the request, or such parts stand both
before and behind it, or neither. -/
theorem mockup_closes_iff (r : Renderer) (before after : List (Node r.maxDepth)) (as : List Attribute)
    (content : List (Leaf r.maxDepth)) :
    let ns := before ++ .mockup as content :: after
    let page := r.echoing.page (textOf ns)
    page.blocks.length = tagsIn ns + ns.countP Node.isMockup ∧
      ∃ inner block, page.blocks[tagsIn ns + before.countP Node.isMockup]? = some block ∧
        block = (Element.browserMockup (entries as) inner).write ∧
        (opened block = closed block ↔ (asksInside content = true → asks before = asks after)) := by
  intro ns page
  have hne : textOf ns ≠ [] := by
    have hmem : '<' ∈ textOf ns :=
      List.mem_flatMap.2 ⟨.plain (mockupStart as), by simp [ns, stretches, Node.stretches],
        by simp [Stretch.write, mockupStart, Element.startTag]⟩
    exact List.ne_nil_of_mem hmem
  obtain ⟨cards, bs, k, hblocks, hcards, hframes⟩ := blocks_textOf r hne
  obtain ⟨block, hblock, hframed⟩ := hframes.getElem?
  obtain ⟨inner, hwrite, hopened, hclosed⟩ := hframed.counts
  refine ⟨by rw [hblocks, List.length_append, hcards, hframes.length], inner, block, ?_, hwrite, ?_⟩
  · rw [hblocks, ← hcards, List.getElem?_append_right (Nat.le_add_right _ _), Nat.add_sub_cancel_left]
    exact hblock
  · rw [hopened, hclosed, Bool.false_or]
    cases asksInside content <;> cases asks before <;> cases asks after <;> simp

/-- Parameters in a mockup and security requirements behind it: the section opens in the mockup and ends behind it. -/
theorem mockup_left_open :
    let params : ShownTag 4 :=
      { component := .parameters, payload := "[\x7b\"name\": \"id\"\x7d]", value := .arr [.obj [("name", .str "id")]]
        reads := by decide +kernel, shows := rfl, calm := Api.calm_of_notMem (by decide), silent := by decide +kernel }
    let security : ShownTag 4 :=
      { component := .security, payload := "[\x7b\"k\": []\x7d]", value := .arr [.obj [("k", .arr [])]]
        reads := by decide +kernel, shows := rfl, calm := Api.calm_of_notMem (by decide), silent := by decide +kernel }
    let url : Attribute := ⟨"url", .quoted ⟨"u", by decide, by decide, by decide⟩, by decide, by decide⟩
    let ns : List (Node 4) :=
      [.mockup [url] [.gap, .tag params, .gap], .leaf .gap, .leaf .gap, .leaf (.tag security)]
    let page := (Renderer.ofSettings {} id).echoing.page (textOf ns)
    textOf ns = ("<BrowserMockup url=\"u\">\n<ApiParams parameters=\x7b[\x7b\"name\": \"id\"\x7d]\x7d />\n" ++
        "</BrowserMockup>\n\n<ApiSecurity security=\x7b[\x7b\"k\": []\x7d]\x7d />").toList ∧
      page.blocks.length = tagsIn ns + 1 ∧ page.blocks[tagsIn ns]?.map opened = some 5 ∧
      page.blocks[tagsIn ns]?.map closed = some 4 := by
  decide +kernel

end DocPages.Markup
