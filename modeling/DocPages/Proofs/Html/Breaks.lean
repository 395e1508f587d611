import DocPages.Page.Element
import DocPages.Proofs.Keyed
import DocPages.Proofs.Text.Breaks
import Mathlib.Data.List.Forall2

/-!
# Templates filled with other line breaks

A template writes the texts it is given between markup of its own. Filled with texts that differ in their line breaks
it gives fragments of the same shape, which differ in their breaks as well: whatever a template asks of an attribute
does not depend on breaks in its value.
-/

namespace DocPages

namespace Breaks

variable {s t : Text}

theorem escape (h : Breaks s t) : Breaks (Html.escape s) (Html.escape t) := h.flatMap rfl rfl

theorem lower (h : Breaks s t) : Breaks (Text.lower s) (Text.lower t) := h.flatMap rfl rfl

theorem upper (h : Breaks s t) : Breaks (Text.upper s) (Text.upper t) := h.flatMap rfl rfl

theorem isDigits (h : Breaks s t) : Text.isDigits s = Text.isDigits t := by
  rw [Text.isDigits, Text.isDigits, h.isEmpty, h.all (by decide)]

/-- Digits hold no break. -/
theorem eq_of_isDigits (h : Breaks s t) (hs : Text.isDigits s = true) : s = t := by
  have hdigit : ∀ c ∈ s, isDigit c = true := by
    unfold Text.isDigits at hs
    simpa using (Bool.and_eq_true_iff.1 hs).2
  exact h.of_unbroken ⟨fun hmem => absurd (hdigit _ hmem) (by decide), fun hmem => absurd (hdigit _ hmem) (by decide)⟩

/-- A table whose keys hold no break has the same entry for both texts. -/
theorem lookup_eq {α : Type} (h : Breaks s t) {table : List (Text × α)} (htable : ∀ e ∈ table, Unbroken e.1) :
    table.lookup s = table.lookup t := by
  induction table with
  | nil => rfl
  | cons e table ih =>
    have hkey : s = e.1 ↔ t = e.1 := h.eq_iff (htable e List.mem_cons_self)
    have hbeq : (s == e.1) = (t == e.1) := by
      rw [Bool.eq_iff_iff]
      simpa using hkey
    rw [List.lookup_cons, List.lookup_cons, hbeq, ih fun e he => htable e (List.mem_cons_of_mem _ he)]

end Breaks

/-! ## Fragments of the same shape -/

/-- The same attribute with values that differ in their breaks. -/
inductive Attr.Restyled : Attr → Attr → Prop where
  | flag (name : Text) : Restyled (.flag name) (.flag name)
  | fixed (name : Text) {v w : Text} (h : Breaks v w) : Restyled (.fixed name v) (.fixed name w)
  | escaped (name : Text) {v w : Text} (h : Breaks v w) : Restyled (.escaped name v) (.escaped name w)

/-- Fragments of one shape whose texts differ in their breaks. -/
inductive Html.Restyled : Html → Html → Prop where
  | empty : Restyled .empty .empty
  | text {s t : Text} (h : Breaks s t) : Restyled (.text s) (.text t)
  | raw {s t : Text} (h : Breaks s t) : Restyled (.raw s) (.raw t)
  | element (tag : Tag) {as bs : List Attr} {a b : Html} (has : List.Forall₂ Attr.Restyled as bs) (h : Restyled a b) :
      Restyled (.element tag as a) (.element tag bs b)
  | leaf (tag : Tag) {as bs : List Attr} (has : List.Forall₂ Attr.Restyled as bs) :
      Restyled (.leaf tag as) (.leaf tag bs)
  | append {a b a' b' : Html} (h : Restyled a b) (h' : Restyled a' b') : Restyled (.append a a') (.append b b')

namespace Attr

theorem Restyled.refl (a : Attr) : Restyled a a := by
  cases a with
  | flag name => exact .flag name
  | fixed name v => exact .fixed name (.refl v)
  | escaped name v => exact .escaped name (.refl v)

theorem Restyled.write {a b : Attr} (h : Restyled a b) : Breaks a.write b.write := by
  cases h with
  | flag name => exact .refl _
  | fixed name h => exact ((Breaks.refl _).append h).append (.refl _)
  | escaped name h => exact ((Breaks.refl _).append h.escape).append (.refl _)

theorem restyled_refl (as : List Attr) : List.Forall₂ Restyled as as := List.forall₂_same.2 fun a _ => .refl a

theorem restyled_write {as bs : List Attr} (h : List.Forall₂ Restyled as bs) :
    Breaks (as.flatMap write) (bs.flatMap write) := by
  induction h with
  | nil => exact .nil
  | cons h _ ih =>
    rw [List.flatMap_cons, List.flatMap_cons]
    exact h.write.append ih

end Attr

namespace Html.Restyled

theorem refl (h : Html) : Restyled h h := by
  induction h with
  | empty => exact .empty
  | text t => exact .text (.refl t)
  | raw t => exact .raw (.refl t)
  | element tag attrs body ih => exact .element tag (Attr.restyled_refl attrs) ih
  | leaf tag attrs => exact .leaf tag (Attr.restyled_refl attrs)
  | append a b iha ihb => exact .append iha ihb

theorem write {a b : Html} (h : Restyled a b) : Breaks a.write b.write := by
  induction h with
  | empty => exact .nil
  | text h => exact h.escape
  | raw h => exact h
  | element tag has _ ih =>
    have hattrs := Attr.restyled_write has
    simp only [Html.write]
    exact (((((Breaks.refl _).append hattrs).append (.refl _)).append ih).append (.refl _)).append (.refl _) |>.append
      (.refl _)
  | leaf tag has =>
    simp only [Html.write]
    exact ((Breaks.refl _).append (Attr.restyled_write has)).append (.refl _)
  | append _ _ ih ih' => exact ih.append ih'

variable {a b : Html}

theorem div (cls : Text) (h : Restyled a b) : Restyled (Html.div cls a) (Html.div cls b) :=
  .element .div (Attr.restyled_refl _) h

theorem concat {as bs : List Html} (h : List.Forall₂ Restyled as bs) : Restyled (Html.concat as) (Html.concat bs) := by
  induction h with
  | nil => exact .empty
  | cons h _ ih => exact .append h ih

/-- A list of fragments, each made from an entry and its number. -/
theorem concat_zipIdx {α β : Type} {R : α → β → Prop} {f : α → Nat → Html} {g : β → Nat → Html} {as : List α} {bs : List β}
    (h : List.Forall₂ R as bs) (hf : ∀ a b i, R a b → Restyled (f a i) (g b i)) :
    Restyled (Html.concat (as.zipIdx.map fun p => f p.1 p.2)) (Html.concat (bs.zipIdx.map fun p => g p.1 p.2)) := by
  have hall (n : Nat) : List.Forall₂ Restyled ((as.zipIdx n).map fun p => f p.1 p.2) ((bs.zipIdx n).map fun p => g p.1 p.2) := by
    induction h generalizing n with
    | nil => exact .nil
    | cons h _ ih => exact .cons (hf _ _ n h) (ih (n + 1))
  exact concat (hall 0)

end Html.Restyled

/-! ## Attributes of tags -/

namespace Attributes

/-- The same names with values that differ in their breaks. -/
def Restyled (as bs : Attributes) : Prop := List.Forall₂ (fun p q : Text × Text => p.1 = q.1 ∧ Breaks p.2 q.2) as bs

theorem Restyled.put {as bs : Attributes} (h : Restyled as bs) (k : Text) {v w : Text} (hvw : Breaks v w) :
    Restyled (Keyed.put k v as) (Keyed.put k w bs) := by
  induction h with
  | nil => exact .cons ⟨rfl, hvw⟩ .nil
  | @cons p q as bs hpq _ ih =>
    obtain ⟨hkey, hvalue⟩ := hpq
    simp only [Keyed.put, hkey]
    split
    · exact .cons ⟨rfl, hvw⟩ ‹_›
    · exact .cons ⟨rfl, hvalue⟩ ih

theorem Restyled.ofList {es fs : List (Text × Text)} (h : Restyled es fs) :
    Restyled (Keyed.ofList es) (Keyed.ofList fs) := by
  have hupdate {as bs : Attributes} (hab : Restyled as bs) : Restyled (Keyed.update as es) (Keyed.update bs fs) := by
    induction h generalizing as bs with
    | nil => exact hab
    | cons hpq _ ih =>
      rw [Keyed.update_cons, Keyed.update_cons, hpq.1]
      exact ih (hab.put _ hpq.2)
  exact hupdate .nil

theorem Restyled.get {as bs : Attributes} (h : Restyled as bs) (name : Text) : Breaks (as.get name) (bs.get name) := by
  unfold Attributes.get
  induction h with
  | nil => exact .nil
  | @cons p q as bs hpq _ ih =>
    rw [Keyed.get?_cons, Keyed.get?_cons, hpq.1]
    split
    · exact hpq.2
    · exact ih

end Attributes

/-! ## The components -/

namespace Element

open Html

variable {s t title title' : Text} {as bs : Attributes}

theorem restyled_accordion (htitle : Breaks title title') (h : Breaks s t) :
    Restyled (accordion title s) (accordion title' t) := by
  refine .element .div (Attr.restyled_refl _) (.append ?_ ?_)
  · exact .element .button (Attr.restyled_refl _) (.append (.element .span .nil (.text htitle)) (.refl _))
  · exact .element .div (Attr.restyled_refl _) (.raw h)

theorem restyled_step (i : Nat) (htitle : Breaks title title') (h : Breaks s t) :
    Restyled (step i title s) (step i title' t) :=
  .div _ (.append (.refl _) (.div _ (.append (.div _ (.text htitle)) (.div _ (.raw h)))))

theorem restyled_steps {ps qs : List (Text × Text)}
    (h : List.Forall₂ (fun p q => Breaks p.1 q.1 ∧ Breaks p.2 q.2) ps qs) : Restyled (steps ps) (steps qs) :=
  .div _ (.concat_zipIdx (f := fun p i => step (i + 1) p.1 p.2) (g := fun p i => step (i + 1) p.1 p.2) h
    fun _ _ i hpq => restyled_step (i + 1) hpq.1 hpq.2)

theorem restyled_tabs (id : Text) {ps qs : List (Text × Text)}
    (h : List.Forall₂ (fun p q => Breaks p.1 q.1 ∧ Breaks p.2 q.2) ps qs) : Restyled (tabs id ps) (tabs id qs) := by
  refine .element .div (Attr.restyled_refl _) (.append (.div _ ?_) (.div _ ?_))
  · rw [List.unzip_fst, List.unzip_fst, List.map_map, List.map_map]
    exact .concat_zipIdx (f := fun p i => (tab i p.1 p.2).1) (g := fun p i => (tab i p.1 p.2).1) h fun _ _ i hpq =>
      .element .button (Attr.restyled_refl _) (.text hpq.1)
  · rw [List.unzip_snd, List.unzip_snd, List.map_map, List.map_map]
    exact .concat_zipIdx (f := fun p i => (tab i p.1 p.2).2) (g := fun p i => (tab i p.1 p.2).2) h fun _ _ i hpq =>
      .element .div (Attr.restyled_refl _) (.raw hpq.2)

theorem restyled_cardGroup (has : as.Restyled bs) (h : Breaks s t) : Restyled (cardGroup as s) (cardGroup bs t) := by
  have hcols := has.get "cols"
  have heq : (if Text.isDigits (as.get "cols") then as.get "cols" else "2") =
      if Text.isDigits (bs.get "cols") then bs.get "cols" else "2" := by
    rw [← hcols.isDigits]
    split
    · exact hcols.eq_of_isDigits ‹_›
    · rfl
  simp only [cardGroup, heq]
  exact .div _ (.raw h)

theorem unbroken_cardShapes : ∀ e ∈ Icon.cardShapes, Unbroken e.1 := by
  decide

theorem restyled_card (has : as.Restyled bs) (h : Breaks s t) : Restyled (card as s) (card bs t) := by
  have hhref := has.get "href"
  have hicon : Icon.card (as.get "icon") = Icon.card (bs.get "icon") := by
    simp only [Icon.card, Icon.shapes, (has.get "icon").lookup_eq unbroken_cardShapes]
  have hcontent : Restyled
      (div "doc-card-icon" (Icon.card (as.get "icon")) ++ div "doc-card-body"
        (div "doc-card-title" (.text (as.get "title")) ++ div "doc-card-description" (.raw s)))
      (div "doc-card-icon" (Icon.card (bs.get "icon")) ++ div "doc-card-body"
        (div "doc-card-title" (.text (bs.get "title")) ++ div "doc-card-description" (.raw t))) := by
    rw [hicon]
    exact .append (.refl _) (.div _ (.append (.div _ (.text (has.get "title"))) (.div _ (.raw h))))
  simp only [card, ← hhref.isEmpty]
  split
  · exact .div _ hcontent
  · exact .element .a (.cons (.refl _) (.cons (.escaped "href" hhref) .nil)) (.append hcontent (.refl _))

theorem restyled_methodBadge {m m' : Text} (h : Breaks m m') : Restyled (methodBadge m) (methodBadge m') := by
  have hletters : (Text.lower m).filter isPlainLetter = (Text.lower m').filter isPlainLetter :=
    h.lower.filter_eq (by decide) (by decide)
  simp only [methodBadge, hletters]
  exact .element .span (Attr.restyled_refl _) (.text h.upper)

theorem restyled_endpoint (has : as.Restyled bs) (h : Breaks s t) : Restyled (endpoint as s) (endpoint bs t) := by
  refine .div _ (.append (.div _ (.append ?_ ?_)) (.div _ (.raw h)))
  · exact restyled_methodBadge (has.get "method")
  · exact .element .code (Attr.restyled_refl _) (.text (has.get "path"))

theorem restyled_parameterTable (h : Breaks s t) : Restyled (parameterTable s) (parameterTable t) := .div _ (.raw h)

theorem restyled_childGrid (has : as.Restyled bs) : Restyled (childGrid as) (childGrid bs) := by
  have hpath := has.get "path"
  have hcolumns := has.get "columns"
  have hfilters := has.get "filters"
  have hshown : (as.get "filters" = "true" ∨ as.get "filters" = "false") ↔
      (bs.get "filters" = "true" ∨ bs.get "filters" = "false") :=
    or_congr (hfilters.eq_iff (by decide)) (hfilters.eq_iff (by decide))
  simp only [childGrid, ← hpath.isEmpty, ← hcolumns.isDigits, ← hshown]
  refine .element .div (List.rel_append (List.rel_append (List.rel_append ?_ ?_) ?_) ?_) .empty
  · exact Attr.restyled_refl _
  · split
    · exact .nil
    · exact .cons (.escaped "data-path" hpath) .nil
  · split
    · exact .cons (.fixed "data-columns" hcolumns) .nil
    · exact .nil
  · split
    · exact .cons (.fixed "data-filters" hfilters) .nil
    · exact .nil

theorem restyled_browserMockup (has : as.Restyled bs) (h : Breaks s t) :
    Restyled (browserMockup as s) (browserMockup bs t) := by
  have htheme : (Text.lower (as.get "theme")).filter (fun c => isPlainLetter c || c == '-') =
      (Text.lower (bs.get "theme")).filter (fun c => isPlainLetter c || c == '-') :=
    (has.get "theme").lower.filter_eq (by decide) (by decide)
  simp only [browserMockup, htheme]
  exact .div _ (.append (.div _ (.append (.refl _) (.div _ (.text (has.get "url"))))) (.div _ (.raw h)))

end Element

end DocPages
