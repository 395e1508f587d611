import DocPages.Proofs.Keyed
import DocPages.Proofs.Page.Expansion
import DocPages.Proofs.Page.Markup

/-!
# Templates around content

Every template puts what its content has become between two stretches of HTML that hold no token and no beginning
of one. So if the content stands for a text, the component stands for the template around that text.
-/

namespace DocPages

open DocPages.Shelf (Part)

/-- A stretch of HTML without the letter of tokens that ends with a tag other than that of a paragraph. -/
structure Closed (t : Text) : Prop where
  plain : 'F' ∉ t
  ends : ∃ u c, c ≠ 'p' ∧ t = u ++ [c, '>']

theorem Closed.harmless {t : Text} (h : Closed t) : (Part.plain t).Harmless := by
  obtain ⟨u, c, hc, rfl⟩ := h.ends
  refine ⟨h.plain, fun s hs hsuffix => ?_⟩
  obtain ⟨v, hv⟩ := hsuffix
  simp only [Shelf.openings, List.mem_cons, List.not_mem_nil, or_false] at hs
  have hlast := congrArg List.reverse hv
  rcases hs with rfl | rfl | rfl
  · simp at hlast
  · simp at hlast
  · simp [hc.symm] at hlast

theorem Closed.append {s t : Text} (hs : 'F' ∉ s) (ht : Closed t) : Closed (s ++ t) := by
  obtain ⟨hplain, u, c, hc, rfl⟩ := ht
  exact ⟨by simp_all, s ++ u, c, hc, by simp⟩

/-- The template writes its content between two closed stretches. -/
def Frames (template : Text → Html) : Prop :=
  ∃ front back, Closed front ∧ Closed back ∧ ∀ u, (template u).write = front ++ (u ++ back)

theorem Frames.stands {template : Text → Html} (h : Frames template) {done : List Text} {t z : Text}
    (ht : Stands done t z) : Stands done (template t).write (template z).write := by
  obtain ⟨front, back, hfront, hback, hwrite⟩ := h
  rw [hwrite, hwrite]
  exact (Stands.plain hfront.harmless done).append (ht.append (.plain hback.harmless done))

theorem closed_endTag (tag : Tag) : Closed ("</" ++ tag.name ++ ">") := by
  obtain ⟨hname, -, hlast⟩ := tag.ends_of_name
  refine ⟨by cases tag <;> decide, ?_⟩
  obtain ⟨u, c, hc⟩ := (List.eq_nil_or_concat tag.name).resolve_left hname
  refine ⟨"</" ++ u, c, by simpa [hc] using hlast, by simp [hc]⟩

namespace Frames

variable {template : Text → Html} {tag : Tag} {attrs : List Attr}

/-- The region of an element that holds nothing but the content. -/
theorem region (hplain : 'F' ∉ attrs.flatMap Attr.write)
    (hend : ∃ u c, c ≠ 'p' ∧ attrs.flatMap Attr.write = u ++ [c]) :
    Frames fun u => .element tag attrs (.raw u) := by
  obtain ⟨v, c, hc, hv⟩ := hend
  have hname : 'F' ∉ tag.name := by cases tag <;> decide
  refine ⟨'<' :: tag.name ++ attrs.flatMap Attr.write ++ ">", "</" ++ tag.name ++ ">", ⟨?_, ?_⟩,
    closed_endTag tag, ?_⟩
  · simp [hname, hplain]
  · exact ⟨'<' :: tag.name ++ v, c, hc, by simp [hv]⟩
  · intro u
    simp [Html.write]

theorem element (hplain : 'F' ∉ attrs.flatMap Attr.write) (h : Frames template) :
    Frames fun u => .element tag attrs (template u) := by
  obtain ⟨front, back, hfront, hback, hwrite⟩ := h
  have hname : 'F' ∉ tag.name := by cases tag <;> decide
  refine ⟨('<' :: tag.name ++ attrs.flatMap Attr.write ++ ">") ++ front, back ++ ("</" ++ tag.name ++ ">"),
    .append (by simp [hname, hplain]) hfront, .append hback.plain (closed_endTag tag), ?_⟩
  intro u
  simp [Html.write, hwrite]

theorem after {a : Html} (ha : 'F' ∉ a.write) (h : Frames template) : Frames fun u => a ++ template u := by
  obtain ⟨front, back, hfront, hback, hwrite⟩ := h
  exact ⟨a.write ++ front, back, .append ha hfront, hback, by simp [hwrite]⟩

theorem before {b : Html} (hb : Closed b.write) (h : Frames template) : Frames fun u => template u ++ b := by
  obtain ⟨front, back, hfront, hback, hwrite⟩ := h
  exact ⟨front, back ++ b.write, hfront, .append hback.plain hb, by simp [hwrite]⟩

theorem cls_plain {cls : Text} (h : 'F' ∉ cls) : 'F' ∉ [Attr.cls cls].flatMap Attr.write := by
  simp [Attr.cls, Attr.write, h]

theorem div {cls : Text} (hcls : 'F' ∉ cls) (h : Frames template) : Frames fun u => Html.div cls (template u) :=
  .element (cls_plain hcls) h

theorem divRegion {cls : Text} (hcls : 'F' ∉ cls) : Frames fun u => Html.div cls (.raw u) :=
  .region (cls_plain hcls) ⟨' ' :: "class" ++ "=\"" ++ cls, '"', by decide, by simp [Attr.cls, Attr.write]⟩

end Frames

/-! ## The templates -/

section
variable {t : Text}

/-- Templates and entities are written without capital letters. -/
theorem plain_escape {c : Char} (hc : c.isUpper = true) (h : c ∉ t) : c ∉ Html.escape t := by
  have hentity {e : Text} (he : ∀ d ∈ e, d.isUpper = false) : c ∉ e := fun hmem => by simp [he c hmem] at hc
  intro hmem
  obtain ⟨d, hd, hmem⟩ := List.mem_flatMap.1 hmem
  unfold Html.escapeChar at hmem
  split at hmem
  · exact hentity (by decide) hmem
  · exact hentity (by decide) hmem
  · exact hentity (by decide) hmem
  · exact hentity (by decide) hmem
  · exact hentity (by decide) hmem
  · exact h (List.mem_singleton.1 hmem ▸ hd)

theorem plain_element {c : Char} (hc : c.isUpper = true) {tag : Tag} {attrs : List Attr} {body : Html}
    (hattrs : c ∉ attrs.flatMap Attr.write) (hbody : c ∉ body.write) :
    c ∉ (Html.element tag attrs body).write := by
  have hname : c ∉ tag.name := by
    have hlower : ∀ d ∈ tag.name, d.isUpper = false := by cases tag <;> decide
    exact fun hmem => by simp [hlower c hmem] at hc
  have hbracket : ∀ d ∈ ['<', '/', '>'], c ≠ d := by
    have hmarks : ∀ d ∈ ['<', '/', '>'], d.isUpper = false := by decide
    rintro d hd rfl
    simp [hmarks c hd] at hc
  simp only [List.mem_cons, List.not_mem_nil, or_false, forall_eq_or_imp, forall_eq] at hbracket
  simp [Html.write, hname, hattrs, hbody, hbracket]

theorem closed_element {tag : Tag} {attrs : List Attr} {body : Html}
    (h : 'F' ∉ (Html.element tag attrs body).write) : Closed (Html.element tag attrs body).write := by
  have hwrite : (Html.element tag attrs body).write =
      ('<' :: tag.name ++ attrs.flatMap Attr.write ++ ">" ++ body.write) ++ ("</" ++ tag.name ++ ">") := by
    simp [Html.write]
  rw [hwrite] at h ⊢
  exact .append (fun hF => h (List.mem_append_left _ hF)) (closed_endTag tag)

theorem plain_div {cls : Text} {body : Html} (hcls : 'F' ∉ cls) (hbody : 'F' ∉ body.write) :
    'F' ∉ (Html.div cls body).write := plain_element rfl (Frames.cls_plain hcls) hbody

theorem plain_append {c : Char} {a b : Html} (ha : c ∉ a.write) (hb : c ∉ b.write) : c ∉ (a ++ b).write := by
  simp [ha, hb]

theorem plain_escaped {name value : Text} (hname : 'F' ∉ name) (hvalue : 'F' ∉ value) :
    'F' ∉ (Attr.escaped name value).write := by
  simp [Attr.write, hname, plain_escape rfl hvalue]

theorem plain_of_all {p : Char → Bool} (hp : p 'F' = false) (h : t.all p = true) : 'F' ∉ t := by
  intro hF
  simp [List.all_eq_true.1 h 'F' hF] at hp

/-! ### Icons -/

/-- No icon is written with an F or a b. -/
def Spares (t : Text) : Prop := ∀ c ∈ ['F', 'b'], c ∉ t

instance (t : Text) : Decidable (Spares t) := inferInstanceAs (Decidable (∀ c ∈ ['F', 'b'], c ∉ t))

theorem Spares.plain (h : Spares t) : 'F' ∉ t := h 'F' (by simp)

/-- A literal is taken as the list of its characters, which are cheaper to look through. -/
theorem spares_literal {cs : Text} (h : Spares cs) : Spares (String.ofList cs).toList := by
  rwa [String.toList_ofList]

theorem spares_join {s : Text} (hs : Spares s) (ht : Spares t) : Spares (s ++ t) :=
  fun c hc hmem => (List.mem_append.1 hmem).elim (hs c hc) (ht c hc)

theorem spares_fixed {name value : Text} (hname : Spares name) (hvalue : Spares value) :
    Spares (Attr.fixed name value).write :=
  spares_join (spares_join (spares_join (spares_join (s := [' ']) (by decide) hname) (by decide)) hvalue) (by decide)

theorem spares_attrs {attrs : List Attr} (h : ∀ a ∈ attrs, Spares a.write) : Spares (attrs.flatMap Attr.write) := by
  intro c hc hmem
  obtain ⟨a, ha, hmem⟩ := List.mem_flatMap.1 hmem
  exact h a ha c hc hmem

theorem spares_leaf {tag : Tag} {attrs : List Attr} (hname : Spares tag.name) (h : ∀ a ∈ attrs, Spares a.write) :
    Spares (Html.leaf tag attrs).write :=
  spares_join (spares_join (spares_join (s := ['<']) (by decide) hname) (spares_attrs h)) (by decide)

theorem spares_element {tag : Tag} {attrs : List Attr} {body : Html} (hname : Spares tag.name)
    (hattrs : Spares (attrs.flatMap Attr.write)) (hbody : Spares body.write) : Spares (Html.element tag attrs body).write := by
  intro c hc
  have hmarks : ∀ c ∈ ['F', 'b'], c ≠ '<' ∧ c ≠ '/' ∧ c ≠ '>' := by decide
  simp [Html.write, hname c hc, hattrs c hc, hbody c hc, hmarks c hc]

theorem spares_drawing {attrs : List Attr} {size : Text} {shapes : List Html} (hattrs : ∀ a ∈ attrs, Spares a.write)
    (hsize : Spares size) (hshapes : ∀ s ∈ shapes, Spares s.write) :
    Spares (Icon.drawing attrs size shapes).write := by
  refine spares_element (by decide) (spares_attrs (List.forall_mem_append.2 ⟨hattrs, ?_⟩)) ?_
  · repeat' with_reducible first
      | refine List.forall_mem_cons.2 ⟨?_, ?_⟩
      | exact fun _ h => absurd h List.not_mem_nil
      | apply spares_fixed
    all_goals first
      | exact hsize
      | exact spares_literal (by decide)
  · rw [Html.write_concat]
    intro c hc hmem
    obtain ⟨s, hs, hmem⟩ := List.mem_flatMap.1 hmem
    exact hshapes s hs c hc hmem

theorem spares_shapes : ∀ e ∈ Icon.calloutShapes ++ Icon.cardShapes, ∀ s ∈ e.2, Spares s.write := by
  simp only [Icon.calloutShapes, Icon.cardShapes, List.cons_append, List.nil_append, List.forall_mem_cons,
    List.not_mem_nil, false_implies, implies_true, and_true, Icon.circle, Icon.path, Icon.polyline, Icon.polygon,
    Icon.line, Icon.ellipse]
  repeat' with_reducible first
    | apply And.intro
    | apply spares_join
    | apply spares_fixed
    | apply spares_leaf
    | refine List.forall_mem_cons.2 ⟨?_, ?_⟩
    | exact fun _ h => absurd h List.not_mem_nil
  all_goals exact spares_literal (by decide)

theorem spares_icon {icons : List (Text × List Html)} (h : ∀ e ∈ icons, ∀ s ∈ e.2, Spares s.write)
    (default name : Text) : ∀ s ∈ Icon.shapes icons default name, Spares s.write := by
  have hlookup {k : Text} {shapes : List Html} (hk : icons.lookup k = some shapes) :
      ∀ s ∈ shapes, Spares s.write := h (k, shapes) (Keyed.mem_of_get? hk)
  unfold Icon.shapes
  cases hname : icons.lookup name with
  | some shapes => exact hlookup hname
  | none => cases hdefault : icons.lookup default with
    | some shapes => exact hlookup hdefault
    | none => exact fun s hs => absurd hs List.not_mem_nil

theorem spares_callout (kind : Text) : Spares (Icon.callout kind).write :=
  spares_drawing (by simp) (spares_literal (by decide))
    (spares_icon (fun e he => spares_shapes e (List.mem_append_left _ he)) _ _)

theorem spares_card (name : Text) : Spares (Icon.card name).write :=
  spares_drawing (by simp) (spares_literal (by decide))
    (spares_icon (fun e he => spares_shapes e (List.mem_append_right _ he)) _ _)

end

namespace Markup

theorem plain_get (as : List Attribute) (k : Text) : 'F' ∉ (entries as).get k := by
  have hvalue (v : AttributeValue) : 'F' ∉ v.text := by
    cases v with
    | quoted p => exact p.notMem (by decide) (by decide)
    | braced n => exact fun h => absurd (Text.isDigit_of_mem_ofNat h) (by decide)
  cases hget : Keyed.get? (entries as) k with
  | none => simp [Attributes.get, hget]
  | some v =>
    have hmem : (k, v) ∈ as.map fun a => (a.name, a.value.text) :=
      (Keyed.mem_update (Keyed.mem_of_get? hget)).resolve_left List.not_mem_nil
    obtain ⟨a, -, ha⟩ := List.mem_map.1 hmem
    have hv : a.value.text = v := congrArg Prod.snd ha
    simpa [Attributes.get, hget, hv] using hvalue a.value

theorem frames_callout {type : Text} (known : type ∈ Element.calloutKinds) : Frames (Element.callout type) := by
  have hclasses : ∀ type ∈ Element.calloutKinds, 'F' ∉ "callout callout-" ++ type := by decide
  have hicon : 'F' ∉ (Icon.callout type).write := (spares_callout type).plain
  exact .div (hclasses type known) (.after (plain_div (by decide) hicon) (.divRegion (by decide)))

theorem frames_accordion {title : Text} (h : 'F' ∉ title) : Frames (Element.accordion title) := by
  have hchevron : 'F' ∉ Icon.chevron.write :=
    (spares_drawing (by decide) (spares_literal (by decide)) (by decide)).plain
  have hlabel : 'F' ∉ (Html.element .span [] (.text title)).write :=
    plain_element rfl (by decide) (plain_escape rfl h)
  have hbutton := plain_append hlabel hchevron
  refine .element (by decide) (.after (plain_element rfl (by decide) hbutton) (.region (by decide) ?_))
  exact ⟨" class=\"doc-accordion-content\" data-accordion-conten", 't', by decide, by decide⟩

theorem frames_step {title : Text} (number : Nat) (h : 'F' ∉ title) : Frames (Element.step number title) := by
  have hnumber : 'F' ∉ Text.ofNat number := fun h => absurd (Text.isDigit_of_mem_ofNat h) (by decide)
  exact .div (by decide) (.after (plain_div (by decide) (plain_escape rfl hnumber))
    (.div (by decide) (.after (plain_div (by decide) (plain_escape rfl h)) (.divRegion (by decide)))))

/-- A list of steps, each of which stands for one with the same title. -/
theorem stands_steps {done : List Text} {parts parts' : List (Text × Text)}
    (h : List.Forall₂ (fun p q => p.1 = q.1 ∧ 'F' ∉ p.1 ∧ Stands done p.2 q.2) parts parts') :
    Stands done (Element.steps parts).write (Element.steps parts').write := by
  have hsteps (n : Nat) : Stands done
      (Html.concat ((parts.zipIdx n).map fun p => Element.step (p.2 + 1) p.1.1 p.1.2)).write
      (Html.concat ((parts'.zipIdx n).map fun p => Element.step (p.2 + 1) p.1.1 p.1.2)).write := by
    induction h generalizing n with
    | nil => exact .nil done
    | @cons p q _ _ hp _ ih =>
      obtain ⟨title, t⟩ := p
      obtain ⟨title', z⟩ := q
      obtain ⟨rfl, hplain, hstands⟩ := hp
      simp only [List.zipIdx_cons, List.map_cons, Html.concat, Html.write_append]
      exact ((frames_step (n + 1) hplain).stands hstands).append (ih (n + 1))
  have hdiv (body : Html) : (Html.div "doc-steps" body).write = (Html.div "doc-steps" (.raw body.write)).write := rfl
  rw [Element.steps, Element.steps, hdiv, hdiv (Html.concat _)]
  exact (Frames.divRegion (by decide)).stands (hsteps 0)

theorem frames_cardGroup (as : Attributes) : Frames (Element.cardGroup as) := by
  refine .divRegion ?_
  have hliteral : 'F' ∉ "doc-card-group cols-".toList := by decide
  split
  · rename_i hdigits
    have hcols : 'F' ∉ as.get "cols" := plain_of_all (by decide) (Bool.and_eq_true_iff.1 hdigits).2
    exact fun h => (List.mem_append.1 h).elim hliteral hcols
  · decide

theorem frames_card {as : Attributes} (h : ∀ k, 'F' ∉ as.get k) : Frames (Element.card as) := by
  have hicon : 'F' ∉ (Icon.card (as.get "icon")).write := (spares_card _).plain
  have hcontent : Frames fun u => Html.div "doc-card-icon" (Icon.card (as.get "icon")) ++ Html.div "doc-card-body"
      (Html.div "doc-card-title" (.text (as.get "title")) ++ Html.div "doc-card-description" (.raw u)) :=
    .after (plain_div (by decide) hicon) (.div (by decide)
      (.after (plain_div (by decide) (plain_escape rfl (h "title"))) (.divRegion (by decide))))
  have harrow : Closed Icon.arrow.write := closed_element (by decide)
  have hhref : 'F' ∉ [Attr.cls "doc-card", .escaped "href" (as.get "href")].flatMap Attr.write := by
    simp only [List.flatMap_cons, List.flatMap_nil, List.append_nil, List.mem_append, not_or]
    exact ⟨by decide, plain_escaped (by decide) (h "href")⟩
  by_cases hlink : (as.get "href").isEmpty = true
  · have hcard : Element.card as = fun u => Html.div "doc-card"
        (Html.div "doc-card-icon" (Icon.card (as.get "icon")) ++ Html.div "doc-card-body"
          (Html.div "doc-card-title" (.text (as.get "title")) ++ Html.div "doc-card-description" (.raw u))) := by
      funext u
      rw [Element.card, if_pos hlink]
    rw [hcard]
    exact .div (by decide) hcontent
  · have hcard : Element.card as = fun u => .element .a [.cls "doc-card", .escaped "href" (as.get "href")]
        ((Html.div "doc-card-icon" (Icon.card (as.get "icon")) ++ Html.div "doc-card-body"
          (Html.div "doc-card-title" (.text (as.get "title")) ++ Html.div "doc-card-description" (.raw u))) ++
          Icon.arrow) := by
      funext u
      rw [Element.card, if_neg hlink]
    rw [hcard]
    exact .element hhref (.before harrow hcontent)

theorem frames_browserMockup {as : Attributes} (h : ∀ k, 'F' ∉ as.get k) : Frames (Element.browserMockup as) := by
  have htheme : 'F' ∉ (Text.lower (as.get "theme")).filter fun c => isPlainLetter c || c == '-' := by
    intro hF
    exact absurd (List.of_mem_filter hF) (by decide)
  have hdots : 'F' ∉ (Html.span "doc-browser-dots" (Html.element .span [] .empty ++ Html.element .span [] .empty ++
      Html.element .span [] .empty)).write := by decide
  have hurl : 'F' ∉ (Html.div "doc-browser-url" (.text (as.get "url"))).write :=
    plain_div (by decide) (plain_escape rfl (h "url"))
  refine .div ?_ (.after (plain_div (by decide) (plain_append hdots hurl)) (.divRegion (by decide)))
  split
  · decide
  · have hliteral : 'F' ∉ "doc-browser-mockup theme-".toList := by decide
    exact fun h => (List.mem_append.1 h).elim hliteral htheme

theorem Box.frames (b : Box) : Frames b.html := by
  cases b with
  | callout type known => exact frames_callout known
  | accordion title => exact frames_accordion (title.notMem (by decide) (by decide))
  | described d as => cases d with
    | cardGroup => exact frames_cardGroup (entries as)
    | card => exact frames_card (plain_get as)
    | browserMockup => exact frames_browserMockup (plain_get as)
  | parameterTable => exact .divRegion (by decide)

end Markup

end DocPages
