import DocPages.Html.Basic

/-!
# Well-formed fragments

A fragment over a vocabulary is text in which all five characters of markup are entities, with elements of the
vocabulary in it that open and close in nested order. So every angle bracket of a fragment belongs to a tag of
the vocabulary and every ampersand to an entity: what the text says cannot open, close or forge an element.
Trees that use the tags of a vocabulary and nothing written beforehand are written as fragments over it.
-/

namespace DocPages

namespace Html

/-- No characters of markup other than quotes. -/
def Unmarked (t : Text) : Prop := ∀ c ∈ ['<', '>', '&'], c ∉ t

-- By the three marks, not by all characters, which is what a search for an instance may find.
instance (t : Text) : Decidable (Unmarked t) := List.decidableBAll (fun c => c ∉ t) ['<', '>', '&']

/-- The tags of templates, each with its attributes as they are written: those that open an element and those
that close themselves. -/
structure Vocabulary where
  opens : Tag → Text → Prop
  leaf : Tag → Text → Prop

def startTag (tag : Tag) (attrs : Text) : Text := '<' :: (tag.name ++ (attrs ++ ['>']))

def endTag (tag : Tag) : Text := '<' :: ('/' :: (tag.name ++ ['>']))

def leafTag (tag : Tag) (attrs : Text) : Text := '<' :: (tag.name ++ (attrs ++ ['/', '>']))

namespace Vocabulary

variable (V : Vocabulary)

/-- The tags of a vocabulary in their written form. -/
inductive IsTag : Text → Prop where
  | opening {tag : Tag} {attrs : Text} (h : V.opens tag attrs) : IsTag (startTag tag attrs)
  | closing {tag : Tag} {attrs : Text} (h : V.opens tag attrs) : IsTag (endTag tag)
  | leaf {tag : Tag} {attrs : Text} (h : V.leaf tag attrs) : IsTag (leafTag tag attrs)

/-- Brackets and ampersands do not stand in attributes. -/
structure Plain : Prop where
  opens : ∀ {tag attrs}, V.opens tag attrs → Unmarked attrs
  leaf : ∀ {tag attrs}, V.leaf tag attrs → Unmarked attrs

/-- All tags of a vocabulary are tags of another. -/
structure Le (W : Vocabulary) : Prop where
  opens : ∀ {tag attrs}, V.opens tag attrs → W.opens tag attrs
  leaf : ∀ {tag attrs}, V.leaf tag attrs → W.leaf tag attrs

theorem Plain.of_le {V W : Vocabulary} (hW : W.Plain) (h : V.Le W) : V.Plain where
  opens := fun hV => hW.opens (h.opens hV)
  leaf := fun hV => hW.leaf (h.leaf hV)

end Vocabulary

/-- The entities that stand for the characters of markup. -/
def entities : List Text := ["&amp;", "&lt;", "&gt;", "&quot;", "&#x27;"]

/-- The grammar of fragments: characters other than those of markup, entities, tags that close themselves, and
elements with a fragment between their tags. -/
inductive Fragment (V : Vocabulary) : Text → Prop where
  | nil : Fragment V []
  | char {c : Char} {t : Text} (hc : c ∉ ['<', '>', '&']) (ht : Fragment V t) : Fragment V (c :: t)
  | entity {e t : Text} (he : e ∈ entities) (ht : Fragment V t) : Fragment V (e ++ t)
  | leaf {tag : Tag} {attrs t : Text} (h : V.leaf tag attrs) (ht : Fragment V t) :
      Fragment V (leafTag tag attrs ++ t)
  | element {tag : Tag} {attrs body t : Text} (h : V.opens tag attrs) (hbody : Fragment V body)
      (ht : Fragment V t) : Fragment V (startTag tag attrs ++ (body ++ (endTag tag ++ t)))

/-- A fragment, with what it says about its single characters: an opening bracket begins a tag, a closing
bracket ends one, and an ampersand begins an entity. -/
structure WellFormed (V : Vocabulary) (t : Text) : Prop where
  nested : Fragment V t
  lt : ∀ a b, t = a ++ '<' :: b → ∃ y, V.IsTag ('<' :: y) ∧ y <+: b
  gt : ∀ a b, t = a ++ '>' :: b → ∃ x, V.IsTag (x ++ ['>']) ∧ x <:+ a
  amp : ∀ a b, t = a ++ '&' :: b → ∃ y, '&' :: y ∈ entities ∧ y <+: b

/-! ## Single characters of a fragment -/

/-- Wherever the character occurs in the text, it stands in a piece of the given kind. -/
def Within (c : Char) (P : Text → Prop) (t : Text) : Prop :=
  ∀ a b, t = a ++ c :: b → ∃ x y, P (x ++ c :: y) ∧ x <:+ a ∧ y <+: b

section
variable {c : Char} {P : Text → Prop} {s t : Text}

theorem Within.of_notMem (h : c ∉ t) : Within c P t := by
  rintro a b rfl
  exact absurd (by simp) h

theorem Within.piece (h : P t) : Within c P t := by
  rintro a b rfl
  exact ⟨a, b, h, List.suffix_rfl, List.prefix_rfl⟩

theorem Within.append (hs : Within c P s) (ht : Within c P t) : Within c P (s ++ t) := by
  intro a b hab
  rcases List.append_eq_append_iff.1 hab with ⟨m, rfl, hm⟩ | ⟨m, rfl, hm⟩
  · obtain ⟨x, y, hp, hx, hy⟩ := ht m b hm
    exact ⟨x, y, hp, hx.trans (List.suffix_append s m), hy⟩
  · cases m with
    | nil =>
      obtain ⟨x, y, hp, hx, hy⟩ := ht [] b hm.symm
      exact ⟨x, y, hp, hx.trans (List.nil_suffix), hy⟩
    | cons d m =>
      obtain ⟨rfl, rfl⟩ := List.cons.inj hm
      obtain ⟨x, y, hp, hx, hy⟩ := hs a m rfl
      exact ⟨x, y, hp, hx, hy.trans (List.prefix_append m t)⟩

end

variable {V W : Vocabulary} {s t : Text}

theorem notMem_name {c : Char} (h : c ∈ ['<', '>', '&', '/']) (tag : Tag) : c ∉ tag.name := by
  simp only [List.mem_cons, List.not_mem_nil, or_false] at h
  rcases h with rfl | rfl | rfl | rfl <;> cases tag <;> decide

theorem notMem_entity {c : Char} (h : c ∈ ['<', '>']) {e : Text} (he : e ∈ entities) : c ∉ e := by
  simp only [List.mem_cons, List.not_mem_nil, or_false] at h
  simp only [entities, List.mem_cons, List.not_mem_nil, or_false] at he
  rcases h with rfl | rfl <;> rcases he with rfl | rfl | rfl | rfl | rfl <;> decide

/-- A tag is a pair of brackets around text without any. -/
theorem Vocabulary.IsTag.brackets (hV : V.Plain) (h : V.IsTag t) :
    ∃ u, t = '<' :: (u ++ ['>']) ∧ Unmarked u := by
  have hname (tag : Tag) (c : Char) (hc : c ∈ ['<', '>', '&']) : c ∉ tag.name :=
    notMem_name (List.mem_append_left ['/'] hc) tag
  have hslash (c : Char) (hc : c ∈ ['<', '>', '&']) : c ≠ '/' := by
    rintro rfl
    exact absurd hc (by decide)
  cases h with
  | @opening tag attrs h =>
    refine ⟨tag.name ++ attrs, by simp [startTag], fun c hc => ?_⟩
    simp [hname tag c hc, hV.opens h c hc]
  | @closing tag attrs h =>
    refine ⟨'/' :: tag.name, by simp [endTag], fun c hc => ?_⟩
    simp [hname tag c hc, hslash c hc]
  | @leaf tag attrs h =>
    refine ⟨tag.name ++ (attrs ++ ['/']), by simp [leafTag], fun c hc => ?_⟩
    simp [hname tag c hc, hslash c hc, hV.leaf h c hc]

/-- Brackets stand in tags only. -/
theorem Fragment.within_tag {c : Char} (hc : c ∈ ['<', '>']) (h : Fragment V t) : Within c V.IsTag t := by
  induction h with
  | nil => exact .of_notMem (by simp)
  | @char d t hd ht ih =>
    have hne : c ∉ [d] := by
      rintro hcd
      obtain rfl := List.mem_singleton.1 hcd
      exact hd (List.mem_append_left ['&'] hc)
    have happ : Within c V.IsTag ([d] ++ t) := .append (.of_notMem hne) ih
    exact happ
  | entity he ht ih => exact .append (.of_notMem (notMem_entity hc he)) ih
  | leaf h ht ih => exact .append (.piece (.leaf h)) ih
  | element h hbody ht ihbody ih =>
    exact .append (.piece (.opening h)) (.append ihbody (.append (.piece (.closing h)) ih))

/-- Ampersands stand in entities only. -/
theorem Fragment.within_entity (hV : V.Plain) (h : Fragment V t) : Within '&' (· ∈ entities) t := by
  have htag {x : Text} (hx : V.IsTag x) : Within '&' (· ∈ entities) x := by
    obtain ⟨u, rfl, hu⟩ := hx.brackets hV
    exact .of_notMem (by simp [hu '&' (by simp)])
  induction h with
  | nil => exact .of_notMem (by simp)
  | @char d t hd ht ih =>
    have hne : '&' ∉ [d] := by
      rintro hcd
      obtain rfl := List.mem_singleton.1 hcd
      exact hd (by simp)
    have happ : Within '&' (· ∈ entities) ([d] ++ t) := .append (.of_notMem hne) ih
    exact happ
  | entity he ht ih => exact .append (.piece he) ih
  | leaf h ht ih => exact .append (htag (.leaf h)) ih
  | element h hbody ht ihbody ih =>
    exact .append (htag (.opening h)) (.append ihbody (.append (htag (.closing h)) ih))

theorem Fragment.wellFormed (hV : V.Plain) (h : Fragment V t) : WellFormed V t where
  nested := h
  lt := by
    intro a b hab
    obtain ⟨x, y, htag, -, hy⟩ := h.within_tag (by simp) a b hab
    obtain ⟨u, hu, hfree⟩ := htag.brackets hV
    cases x with
    | nil => exact ⟨y, htag, hy⟩
    | cons d x =>
      have hmem : '<' ∈ u ++ ['>'] := by simp [← (List.cons.inj hu).2]
      exact absurd hmem (by simp [hfree '<' (by simp)])
  gt := by
    intro a b hab
    obtain ⟨x, y, htag, hx, -⟩ := h.within_tag (by simp) a b hab
    obtain ⟨u, hu, hfree⟩ := htag.brackets hV
    rcases List.eq_nil_or_concat y with rfl | ⟨y, d, rfl⟩
    · exact ⟨x, htag, hx⟩
    · have hends : (x ++ '>' :: y) ++ [d] = ('<' :: u) ++ ['>'] := by simpa using hu
      have hmem : '>' ∈ '<' :: u := by simp [← (List.append_inj' hends rfl).1]
      exact absurd hmem (by simp [hfree '>' (by simp)])
  amp := by
    intro a b hab
    obtain ⟨x, y, he, -, hy⟩ := h.within_entity hV a b hab
    cases x with
    | nil => exact ⟨y, he, hy⟩
    | cons d x =>
      have hfront : ∀ e ∈ entities, '&' ∉ e.tail := by decide
      exact absurd (by simp) (hfront _ he)

/-! ## Trees -/

theorem Fragment.append (hs : Fragment V s) (ht : Fragment V t) : Fragment V (s ++ t) := by
  induction hs with
  | nil => exact ht
  | char hc _ ih => exact .char hc ih
  | entity he _ ih =>
    rw [List.append_assoc]
    exact .entity he ih
  | leaf h _ ih =>
    rw [List.append_assoc]
    exact .leaf h ih
  | element h hbody _ _ ih =>
    have hin := Fragment.element h hbody ih
    simpa using hin

theorem Fragment.escape (t : Text) : Fragment V (escape t) := by
  induction t with
  | nil => exact .nil
  | cons c t ih =>
    have hentity {e : Text} (he : e ∈ entities) : Fragment V (e ++ Html.escape t) := .entity he ih
    change Fragment V (escapeChar c ++ Html.escape t)
    unfold escapeChar
    split
    · exact hentity (by decide)
    · exact hentity (by decide)
    · exact hentity (by decide)
    · exact hentity (by decide)
    · exact hentity (by decide)
    · rename_i hamp hlt hgt _ _
      refine .char ?_ ih
      simp only [List.mem_cons, List.not_mem_nil, or_false, not_or]
      exact ⟨hlt, hgt, hamp⟩

/-- The tree uses tags of the vocabulary only, and no text that has been written beforehand. -/
def Over (V : Vocabulary) : Html → Prop
  | empty => True
  | text _ => True
  | raw _ => False
  | element tag attrs body => V.opens tag (attrs.flatMap Attr.write) ∧ Over V body
  | leaf tag attrs => V.leaf tag (attrs.flatMap Attr.write)
  | append a b => Over V a ∧ Over V b

@[simp] theorem over_empty : Over V empty := trivial

@[simp] theorem over_text (t : Text) : Over V (text t) := trivial

@[simp] theorem over_append {a b : Html} : Over V (a ++ b) ↔ Over V a ∧ Over V b := Iff.rfl

@[simp] theorem over_concat {hs : List Html} : Over V (concat hs) ↔ ∀ h ∈ hs, Over V h := by
  induction hs with
  | nil => simp [concat]
  | cons h hs ih => simp [concat, ih]

theorem over_when {b : Bool} {h : Html} (hh : Over V h) : Over V (when b h) := by
  cases b with
  | false => exact trivial
  | true => exact hh

theorem Over.mono (hle : V.Le W) {h : Html} (hh : Over V h) : Over W h := by
  induction h with
  | empty => exact trivial
  | text t => exact trivial
  | raw t => exact hh
  | element tag attrs body ih => exact ⟨hle.opens hh.1, ih hh.2⟩
  | leaf tag attrs => exact hle.leaf hh
  | append a b iha ihb => exact ⟨iha hh.1, ihb hh.2⟩

theorem write_element (tag : Tag) (attrs : List Attr) (body : Html) : (element tag attrs body).write =
    startTag tag (attrs.flatMap Attr.write) ++ (body.write ++ endTag tag) := by
  simp [write, startTag, endTag]

/-- What a tree over a vocabulary is written as. -/
theorem Over.fragment {h : Html} (hh : Over V h) : Fragment V h.write := by
  induction h with
  | empty => exact .nil
  | text t => exact .escape t
  | raw t => exact hh.elim
  | element tag attrs body ih =>
    have hin := Fragment.element hh.1 (ih hh.2) Fragment.nil
    rw [write_element]
    simpa using hin
  | leaf tag attrs =>
    have hin := Fragment.leaf hh Fragment.nil
    simpa [write, leafTag] using hin
  | append a b iha ihb => exact (iha hh.1).append (ihb hh.2)

end Html

end DocPages
