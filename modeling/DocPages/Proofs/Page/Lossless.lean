import DocPages.Proofs.Html.Escape
import DocPages.Proofs.Page.Quiet
import DocPages.Proofs.Page.Reach
import DocPages.Proofs.Page.Tidy

/-!
# Passes that lose no block

A component keeps the regions between its tags, with the tokens that stand there; what its tags say, and what stands
around the items of a group, is given up. In a tidy text no token stands there, and each pass leaves a tidy text. So
every block that is put on the shelf stays within reach.
-/

namespace DocPages

open DocPages.Shelf (token place)

/-! ## What the templates keep -/

namespace Html

variable {x : Text} {a b : Html}

/-- The text stands in the fragment. -/
def Holds (x : Text) (h : Html) : Prop := x <:+: h.write

namespace Holds

theorem raw {t : Text} (h : x <:+: t) : Holds x (.raw t) := h

theorem left (h : Holds x a) (b : Html) : Holds x (a ++ b) := h.trans (List.prefix_append a.write b.write).isInfix

theorem right (a : Html) (h : Holds x b) : Holds x (a ++ b) := h.trans (List.suffix_append a.write b.write).isInfix

theorem element (tag : Tag) (attrs : List Attr) (h : Holds x a) : Holds x (.element tag attrs a) :=
  h.trans ⟨'<' :: tag.name ++ attrs.flatMap Attr.write ++ ">", "</" ++ tag.name ++ ">", by simp [write]⟩

theorem div (cls : Text) (h : Holds x a) : Holds x (Html.div cls a) := element .div _ h

theorem concat {hs : List Html} (hmem : a ∈ hs) (h : Holds x a) : Holds x (Html.concat hs) := by
  induction hs with
  | nil => cases hmem
  | cons b hs ih =>
    rcases List.mem_cons.1 hmem with rfl | hmem
    · exact h.left _
    · exact right b (ih hmem)

/-- Tokens are letters and digits, so they are not changed by escaping. -/
theorem text {n : Nat} {t : Text} (h : token n <:+: t) : Holds (token n) (.text t) := by
  obtain ⟨u, v, rfl⟩ := h
  refine ⟨escape u, escape v, ?_⟩
  rw [write, escape_append, escape_append, escape_eq_self fun _ hc => Shelf.isAlphanum_of_mem_token hc]

end Holds

end Html

namespace Element

open Html

variable {x inner : Text}

theorem holds_callout (kind : Text) (h : x <:+: inner) : Holds x (callout kind inner) :=
  .div _ (.right _ (.div _ (.raw h)))

theorem holds_accordion (title : Text) (h : x <:+: inner) : Holds x (accordion title inner) :=
  .element _ _ (.right _ (.element _ _ (.raw h)))

theorem holds_accordion_title {n : Nat} {title : Text} (inner : Text) (h : token n <:+: title) :
    Holds (token n) (accordion title inner) :=
  .element _ _ (.left (.element _ _ (.left (.element _ _ (.text h)) _)) _)

theorem holds_tabs (id : Text) {parts : List (Text × Text)} {part : Text × Text} (hmem : part ∈ parts)
    (h : x <:+: part.2) : Holds x (tabs id parts) := by
  obtain ⟨i, hi⟩ := List.getElem?_of_mem hmem
  refine .element _ _ (.right _ (.div _ ?_))
  rw [List.unzip_snd]
  exact .concat (List.mem_map_of_mem (List.mem_map.2 ⟨(part, i), List.mem_zipIdx_iff_getElem?.2 hi, rfl⟩))
    (.element _ _ (.raw h))

theorem holds_steps {parts : List (Text × Text)} {part : Text × Text} (hmem : part ∈ parts) (h : x <:+: part.2) :
    Holds x (steps parts) := by
  obtain ⟨i, hi⟩ := List.getElem?_of_mem hmem
  refine .div _ (.concat (List.mem_map.2 ⟨(part, i), List.mem_zipIdx_iff_getElem?.2 hi, rfl⟩) ?_)
  exact .div _ (.right _ (.div _ (.right _ (.div _ (.raw h)))))

theorem holds_cardGroup (as : Attributes) (h : x <:+: inner) : Holds x (cardGroup as inner) := .div _ (.raw h)

theorem holds_card (as : Attributes) (h : x <:+: inner) : Holds x (card as inner) := by
  have hcontent : Holds x (div "doc-card-icon" (Icon.card (as.get "icon")) ++ div "doc-card-body"
      (div "doc-card-title" (.text (as.get "title")) ++ div "doc-card-description" (.raw inner))) :=
    .right _ (.div _ (.right _ (.div _ (.raw h))))
  unfold card
  simp only
  split
  · exact .div _ hcontent
  · exact .element _ _ (.left hcontent _)

theorem holds_endpoint (as : Attributes) (h : x <:+: inner) : Holds x (endpoint as inner) :=
  .div _ (.right _ (.div _ (.raw h)))

theorem holds_parameterTable (h : x <:+: inner) : Holds x (parameterTable inner) := .div _ (.raw h)

theorem holds_browserMockup (as : Attributes) (h : x <:+: inner) : Holds x (browserMockup as inner) :=
  .div _ (.right _ (.div _ (.raw h)))

end Element

/-! ## Searches -/

/-- The second text may stand for the first in a tidy text. -/
def Replaces (s x : Text) : Prop := ∀ σ τ, τ.tag = none → Lex.run σ s = some τ → Lex.run σ x = some τ

theorem Replaces.tidy {s x : Text} (h : Replaces s x) (hs : Tidy s) : Tidy x := by
  obtain ⟨z, hz⟩ := hs
  exact ⟨z, h _ _ rfl hz⟩

/-- In a tidy text `u` with `t` behind it begins and ends where no tag is open and no gap between items. -/
def Whole (u t : Text) : Prop :=
  ∀ σ τ, τ.tag = none → Lex.run σ (u ++ t) = some τ → σ = .start ∧ Lex.start.run t = some τ

theorem Replaces.refl (s : Text) : Replaces s s := fun _ _ _ => id

theorem Replaces.behind {s x : Text} (h : Replaces s x) (u : Text) : Replaces (u ++ s) (u ++ x) := by
  intro σ τ hτ hrun
  obtain ⟨ρ, hu, hs⟩ := Lex.run_append_eq_some.1 hrun
  exact Lex.run_append_eq_some.2 ⟨ρ, hu, h ρ τ hτ hs⟩

theorem Whole.replaces {u s x y : Text} (h : Whole u s) (hx : Free x) (hs : Replaces s y) : Replaces (u ++ s) (x ++ y) := by
  intro σ τ hτ hrun
  obtain ⟨rfl, ht⟩ := h σ τ hτ hrun
  exact Lex.run_append_eq_some.2 ⟨.start, hx, hs _ _ hτ ht⟩

/-- The text ends with neither a letter, a digit nor a line break. -/
def Shut (u : Text) : Prop := ∃ c, u.getLast? = some c ∧ c.isAlphanum = false ∧ c ≠ '\n'

theorem Shut.isAlphanum_getLast {u : Text} (h : Shut u) : ∀ c ∈ u.getLast?, c.isAlphanum = false := by
  obtain ⟨c, hlast, hc, -⟩ := h
  simpa [hlast] using hc

theorem Shut.freshBehind {u : Text} (h : Shut u) (f : Bool) : freshBehind f u = false := by
  obtain ⟨c, hlast, -, hc⟩ := h
  simp [DocPages.freshBehind, hlast, hc]

theorem Shut.behind {u : Text} (h : Shut u) (s : Text) : Shut (s ++ u) := by
  obtain ⟨c, hlast, hc⟩ := h
  exact ⟨c, by rw [List.getLast?_append, hlast]; rfl, hc⟩

namespace Keeps

variable {α : Type} {P : Nat → Prop} {Q : α → Nat → Prop} {R : α → Prop}

/-- What the result holds of itself is within reach. -/
theorem extend {step : StateM Work α} (h : Keeps P Q R step) {E : Nat → Prop} (hE : ∀ n, E n → ∀ w, Q (step.run w).1 n) :
    Keeps (fun n => E n ∨ P n) Q R step := fun w =>
  ⟨⟨(h w).1.grows, fun n hn => hn.elim (fun hn => .base (hE n hn w)) ((h w).1.old n), (h w).1.new⟩, (h w).2⟩

/-- What is written for each construct decides. The text that comes out may stand for the one that went in if each
construct is whole. -/
theorem mapFoundM {read : Reader Char α} (htakes : Takes read) (htoken : ∀ n t, Refused read (token n) t)
    {write : α → StateM Work Text} {s : Text} (f : Bool)
    (hfound : ∀ u t a, u ++ t <:+ s → read (u ++ t) = some (a, t) → Shut u ∧ ∀ f,
      Keeps (fun n => Lined f n u) (fun x n => Lined false n x) Free (write a)) :
    Keeps (fun n => Lined f n s) (fun x n => Lined f n x)
      (fun x => (∀ u t a, u ++ t <:+ s → read (u ++ t) = some (a, t) → Whole u t) → Replaces s x)
      (Text.mapFoundM read write s) := by
  induction s using htakes.induction generalizing f with
  | nil => exact pure (fun _ => id) fun _ _ _ _ => id
  | kept c s hr ih =>
    have hrest := ih (c == '\n') fun u t a hu => hfound u t a (hu.trans (List.suffix_cons c s))
    have hstep : Keeps (fun n => Lined (c == '\n') n s) (fun x n => Lined f n x)
        (fun x => (∀ u t a, u ++ t <:+ c :: s → read (u ++ t) = some (a, t) → Whole u t) → Replaces (c :: s) x)
        (do return c :: (← Text.mapFoundM read write s)) := by
      refine hrest.bind fun x hx => pure (fun n hn => hn.cons) fun hwhole => .behind (hx fun u t a hu => ?_) [c]
      exact hwhole u t a (hu.trans (List.suffix_cons c s))
    rw [← Text.mapFoundM_kept hr] at hstep
    refine (hstep.extend (E := fun n => f = true ∧ token n <+: c :: s) fun n hn w => ?_).mono (fun n => Lined.cons_inv)
      (fun _ _ _ => id) fun _ => id
    -- The search passes over a token as a whole.
    obtain ⟨rfl, b, hb⟩ := hn
    rw [← hb, Text.mapFoundM_append (htoken n b)]
    exact .front n _
  | found u t a hu hr ih =>
    obtain ⟨hshut, hwrite⟩ := hfound u t a (List.suffix_refl _) hr
    rw [Text.mapFoundM_front hu hr]
    have hfront := (hwrite f).frame fun n => Lined false n t
    refine (hfront.mono (fun n (hn : Lined f n (u ++ t)) => ?_) (fun _ _ _ => id) fun _ => id).bind
      fun x hx => ?_
    · rw [← hshut.freshBehind f]
      exact hn.cut (.inl hshut.isAlphanum_getLast)
    · have hback := (ih false fun u' t' a' hu' => hfound u' t' a' (hu'.trans (List.suffix_append u t))).frame
        fun n => Lined false n x
      refine (hback.mono (fun n => Or.symm) (fun _ _ _ => id) fun _ => id).bind fun y hy => pure (fun n hn => ?_) ?_
      · rcases hn with hn | hn
        · exact .append_right (hn.mono fun h => by cases h)
        · exact (hn.mono fun h => by cases h).append_left y
      · exact fun hwhole => (hwhole u t a (List.suffix_refl _) hr).replaces hx
          (hy fun u' t' a' hu' => hwhole u' t' a' (hu'.trans (List.suffix_append u t)))

end Keeps

/-! ## Components -/

section
variable {n : Nat} {f : Bool} {s t u x name : Text}

theorem notMem_token {c : Char} (hc : c.isAlphanum = false) (n : Nat) : c ∉ token n := fun hmem => by
  rw [Shelf.isAlphanum_of_mem_token hmem] at hc
  cases hc

theorem not_token_of_notMem (h : 'D' ∉ s) : ¬ token n <:+: s := fun hi => h (hi.subset List.mem_cons_self)

/-- No token stands in a sound tag. -/
theorem not_token_tag (h : isSound x = true) : ¬ token n <:+: '<' :: (x ++ ['>']) := by
  intro hi
  have hx : token n <:+: x := by
    rcases (Text.infix_separated (s := []) (notMem_token (by decide) n)).1 hi with hi | hi
    · exact absurd (List.infix_nil.1 hi) (Shelf.token_ne_nil n)
    · rcases (Text.infix_separated (notMem_token (by decide) n)).1 hi with hi | hi
      · exact hi
      · exact absurd (List.infix_nil.1 hi) (Shelf.token_ne_nil n)
  have hword : "DOCFORGESTASH" <:+: token n := ⟨[], Text.ofNat n ++ "END", (List.append_assoc _ _ _).symm⟩
  exact Lex.not_isInfix_of_isSound h List.mem_cons_self (hword.trans hx)

theorem free_place (n : Nat) : Free (place n) := by
  refine Lex.run_plain fun hmem => ?_
  rcases List.mem_append.1 hmem with hmem | hmem
  · rcases List.mem_append.1 hmem with hmem | hmem
    · exact absurd hmem (by decide)
    · exact notMem_token (by decide) n hmem
  · exact absurd hmem (by decide)

theorem shut_tag (x : Text) : Shut (x ++ ['>']) := ⟨'>', by simp, by decide, by decide⟩

theorem shut_component (name inside body : Text) :
    Shut (Element.startTag name ++ (inside ++ '>' :: (body ++ Element.endTag name))) := by
  have hbody : Shut (body ++ Element.endTag name) := (shut_tag ('<' :: '/' :: name)).behind body
  exact ((hbody.behind ['>']).behind inside).behind _

theorem Tidy.suffix (hs : Tidy s) (h : t <:+ s) : ∃ σ τ, Lex.run σ t = some τ ∧ τ.tag = none := by
  obtain ⟨z, hz⟩ := hs
  obtain ⟨a, rfl⟩ := h
  obtain ⟨σ, -, ht⟩ := Lex.run_append_eq_some.1 hz
  exact ⟨σ, _, ht, rfl⟩

/-- What stands inside a component: it is tidy, and all tokens of the component stand there. -/
theorem tidy_component {inside body : Text} {σ τ : Lex} (hname : Lex.Ungrouped name) (hgt : '>' ∉ name) (hinside : '>' ∉ inside)
    (h : σ.run (Element.startTag name ++ (inside ++ '>' :: (body ++ (Element.endTag name ++ t)))) = some τ) :
    σ = .start ∧ Lex.start.run t = some τ ∧ Tidy body ∧ isSound (name ++ inside) = true := by
  obtain ⟨rfl, hsound, hrest⟩ := Lex.run_start_tag hname h (by simp [hgt, hinside])
  obtain ⟨hbody, ht⟩ := Lex.run_end_tag hname hgt hrest
  exact ⟨rfl, ht, hbody.tidy, hsound⟩

theorem lined_component {inside body : Text} (hsound : isSound (name ++ inside) = true) (hD : 'D' ∉ name)
    (h : Lined f n (Element.startTag name ++ (inside ++ '>' :: (body ++ Element.endTag name)))) : Lined true n body := by
  have htext : Element.startTag name ++ (inside ++ '>' :: (body ++ Element.endTag name)) =
      ('<' :: ((name ++ inside) ++ ['>'])) ++ (body ++ Element.endTag name) := by simp [Element.startTag]
  rw [htext] at h
  have hback := h.behind (.inl (shut_tag ('<' :: (name ++ inside))).isAlphanum_getLast) (not_token_tag hsound)
  have hend : ¬ token n <:+: Element.endTag name := not_token_of_notMem (by simp [Element.endTag, hD])
  exact (hback.before (.inr (by simp [Element.endTag])) hend).mono fun _ => rfl

end

/-- The pass leaves a tidy text, with all that stood on its lines within reach. -/
def Carries (pass : Text → StateM Work Text) : Prop :=
  ∀ s, Tidy s → Keeps (fun n => Lined true n s) (fun x n => Lined true n x) Tidy (pass s)

/-- The regions inside components are rendered with all that stood on their lines within reach. -/
def CarriesInside (inner : Text → StateM Work Text) : Prop :=
  ∀ s, Tidy s → Keeps (fun n => Lined true n s) (fun (y : Text) n => token n <:+: y) (fun _ => True) (inner s)

namespace Carries

open Renderer (shelveAll shelveGroups)

variable {α : Type} {read : Reader Char α} {c : Char} {part name : Text} {inner : Text → StateM Work Text}

theorem mapFoundM {write : α → StateM Work Text} (htakes : Takes read) (hbegins : Begins read (c :: part))
    (hc : c.isAlphanum = false)
    (hfound : ∀ σ τ u t a, read (u ++ t) = some (a, t) → Lex.run σ (u ++ t) = some τ → τ.tag = none →
      (σ = .start ∧ Lex.start.run t = some τ) ∧ Shut u ∧ ∀ f,
        Keeps (fun n => Lined f n u) (fun x n => Lined false n x) Free (write a)) :
    Carries (Text.mapFoundM read write) := by
  intro s hs
  have htoken (n : Nat) (t : Text) : Refused read (token n) t :=
    Text.refused_of_clear hbegins (Text.clear_of_notMem (notMem_token hc n) t)
  refine (Keeps.mapFoundM htakes htoken true fun u t a hu hr => ?_).mono (fun _ => id) (fun _ _ _ => id)
    fun x hx => (hx fun u t a hu hr => ?_).tidy hs
  · obtain ⟨σ, τ, hrun, hτ⟩ := hs.suffix hu
    exact (hfound σ τ u t a hr hrun hτ).2
  · exact fun σ τ hτ hrun => (hfound σ τ u t a hr hrun hτ).1

theorem shelveAll {html : α → StateM Work Html} (htakes : Takes read) (hbegins : Begins read (c :: part))
    (hc : c.isAlphanum = false)
    (hfound : ∀ σ τ u t a, read (u ++ t) = some (a, t) → Lex.run σ (u ++ t) = some τ → τ.tag = none →
      (σ = .start ∧ Lex.start.run t = some τ) ∧ Shut u ∧ ∀ f,
        Keeps (fun n => Lined f n u) (fun h n => h.Holds (token n)) (fun _ => True) (html a)) :
    Carries (shelveAll read html) := by
  refine mapFoundM htakes hbegins hc fun σ τ u t a hr hrun hτ => ?_
  obtain ⟨hends, hshut, hhtml⟩ := hfound σ τ u t a hr hrun hτ
  refine ⟨hends, hshut, fun f => (hhtml f).bind fun h _ => (Keeps.shelve fun _ => id).mono (fun _ => id) (fun _ _ _ => id) ?_⟩
  rintro x ⟨n, rfl⟩
  exact free_place n

theorem bind {pass next : Text → StateM Work Text} (h : Carries pass) (hn : Carries next) :
    Carries fun t => pass t >>= next := fun s hs => (h s hs).bind hn

/-- Passes one after the other. -/
theorem foldlM {β : Type} {pass : β → Text → StateM Work Text} {bs : List β} (h : ∀ b ∈ bs, Carries (pass b)) :
    Carries fun t => bs.foldlM (fun t b => pass b t) t := by
  induction bs with
  | nil => exact fun s hs => .pure (fun _ => id) hs
  | cons b bs ih =>
    obtain ⟨hb, hbs⟩ := List.forall_mem_cons.1 h
    simp only [List.foldlM_cons]
    exact hb.bind (ih hbs)

section
variable (hinner : CarriesInside inner)
include hinner

theorem described {html : Attributes → Text → Html} (hname : Lex.Ungrouped name) (hgt : '>' ∉ name) (hD : 'D' ∉ name)
    (hhtml : ∀ as n y, token n <:+: y → (html as y).Holds (token n)) :
    Carries (Renderer.shelveAll (Element.described? name) fun e => do return html e.attributes (← inner e.body)) := by
  refine shelveAll (Element.takes_described name) (Markup.begins_described name) (by decide) fun σ τ u t e hr hrun hτ => ?_
  obtain ⟨inside, hinside, -, htext⟩ := Element.described?_eq_some hr
  obtain ⟨rfl, ht, hbody, hsound⟩ := tidy_component hname hgt hinside (htext ▸ hrun)
  obtain rfl : u = Element.startTag name ++ (inside ++ '>' :: (e.body ++ Element.endTag name)) :=
    List.append_cancel_right (htext.trans (by simp))
  refine ⟨⟨rfl, ht⟩, shut_component name _ _, fun f => ?_⟩
  exact ((hinner e.body hbody).mono (fun n => lined_component hsound hD) (fun _ _ _ => id) fun _ => id).bind fun y _ =>
    .pure (fun n => hhtml e.attributes n y) trivial

theorem plain {html : Text → Html} (hname : Lex.Ungrouped name) (hgt : '>' ∉ name) (hD : 'D' ∉ name)
    (hhtml : ∀ n y, token n <:+: y → (html y).Holds (token n)) :
    Carries (Renderer.shelveAll (Element.plain? name) fun body => do return html (← inner body)) := by
  refine shelveAll (Element.takes_plain name) (Markup.begins_plain name) (by decide) fun σ τ u t body hr hrun hτ => ?_
  obtain ⟨b, hb, -, htext⟩ := Element.plain?_eq_some hr
  have hblank : '>' ∉ b := fun hmem => absurd (hb _ hmem) (by decide)
  obtain ⟨rfl, ht, hbody, hsound⟩ := tidy_component hname hgt hblank (htext ▸ hrun)
  obtain rfl : u = Element.startTag name ++ (b ++ '>' :: (body ++ Element.endTag name)) :=
    List.append_cancel_right (htext.trans (by simp))
  refine ⟨⟨rfl, ht⟩, shut_component name _ _, fun f => ?_⟩
  exact ((hinner body hbody).mono (fun n => lined_component hsound hD) (fun _ _ _ => id) fun _ => id).bind fun y _ =>
    .pure (fun n => hhtml n y) trivial

theorem titled {html : Text → Text → Html} (hname : Lex.Ungrouped name) (hgt : '>' ∉ name) (hD : 'D' ∉ name)
    (hlabel : ∀ l y n, token n <:+: l → (html l y).Holds (token n))
    (hhtml : ∀ l n y, token n <:+: y → (html l y).Holds (token n)) :
    Carries (Renderer.shelveAll (Element.titled? name) fun e => do return html e.label (← inner e.body)) := by
  refine shelveAll (Element.takes_titled name) (Markup.begins_titled name) (by decide) fun σ τ u t e hr hrun hτ => ?_
  obtain ⟨b, b', hb, hb', -, htext⟩ := Element.titled?_eq_some hr
  have hlead : 'D' ∉ Element.startTag name ++ (b ++ "title=\"") := by
    simp only [Element.startTag, List.mem_append, List.mem_cons, hD, or_false, not_or]
    exact ⟨by decide, fun hmem => absurd (hb _ hmem) (by decide), by decide⟩
  have hrun : σ.run ((Element.startTag name ++ (b ++ ("title=\"" ++ e.label))) ++
      '"' :: (b' ++ '>' :: (e.body ++ (Element.endTag name ++ t)))) = some τ := by
    rw [htext] at hrun
    simpa using hrun
  obtain rfl : σ = .start := Lex.eq_start_of_tag hname (by simpa using hrun) hτ hgt
  obtain ⟨hbody, ht⟩ := Lex.run_end_tag hname hgt (Lex.run_quoted hrun hb')
  obtain rfl : u = (Element.startTag name ++ (b ++ "title=\"")) ++ (e.label ++
      (('"' :: (b' ++ ['>'])) ++ (e.body ++ Element.endTag name))) := List.append_cancel_right (htext.trans (by simp))
  refine ⟨⟨rfl, ht⟩, ?_, fun f => ?_⟩
  · have hbody : Shut (e.body ++ Element.endTag name) := Shut.behind (shut_tag ('<' :: '/' :: name)) _
    exact .behind (.behind (.behind hbody _) _) _
  · have hinside := ((hinner e.body (Free.tidy hbody)).frame fun n => token n <:+: e.label)
    refine (hinside.mono (fun n hn => ?_) (fun _ _ _ => id) fun _ => id).bind fun y _ =>
      .pure (fun n hn => hn.elim (hhtml e.label n y) (hlabel e.label y n)) trivial
    have hback := hn.behind (.inl (by simp)) (not_token_of_notMem hlead)
    rcases hback.cut (.inr (by simp)) with hlabel | hback
    · exact .inr hlabel.isInfix
    · have hquote : 'D' ∉ '"' :: (b' ++ ['>']) := by
        simp only [List.mem_cons, List.mem_append, not_or]
        exact ⟨by decide, fun hmem => absurd (hb' _ hmem) (by decide), by decide, by simp⟩
      have hback := hback.behind (.inl (shut_tag ('"' :: b')).isAlphanum_getLast) (not_token_of_notMem hquote)
      have hend : ¬ token n <:+: Element.endTag name := not_token_of_notMem (by simp [Element.endTag, hD])
      exact .inl ((hback.before (.inr (by simp [Element.endTag])) hend).mono fun _ => rfl)

theorem callout :
    Carries (Renderer.shelveAll Element.callout? fun e => do return Element.callout e.label (← inner e.body)) := by
  refine shelveAll Element.takes_callout Markup.begins_callout (by decide) fun σ τ u t e hr hrun hτ => ?_
  obtain ⟨b, hkind, hb, htext⟩ := Element.callout?_eq_some hr
  have hcolons : Element.colons ∈ tagParts := by simp [tagParts, lineParts]
  have hkinds : ∀ kind ∈ Element.calloutKinds, '<' ∉ kind ∧ 'D' ∉ kind := by decide
  obtain ⟨hlt, hD⟩ := hkinds _ hkind
  have hindent : '<' ∉ b ∧ 'D' ∉ b := ⟨fun hmem => absurd (hb _ hmem) (by decide), fun hmem => absurd (hb _ hmem) (by decide)⟩
  -- The line of the kind, and the two stretches of colons.
  have hplain : '<' ∉ Element.colons ++ (e.label ++ (b ++ ['\n'])) := by simp [Element.colons, hlt, hindent]
  have hlead : 'D' ∉ Element.colons ++ (e.label ++ (b ++ ['\n'])) := by simp [Element.colons, hD, hindent]
  have hline : u ++ t = (Element.colons ++ (e.label ++ (b ++ ['\n']))) ++ (e.body ++ (Element.colons ++ t)) := by
    rw [htext]
    simp
  rw [htext] at hrun
  obtain rfl : σ = .start := Lex.eq_start_of_part hcolons hrun hτ
  rw [← htext, hline] at hrun
  obtain ⟨ρ, hkind, hrest⟩ := Lex.run_append_eq_some.1 hrun
  obtain rfl := Option.some.inj ((Lex.run_plain hplain).symm.trans hkind)
  obtain ⟨ρ, hbody, hend⟩ := Lex.run_append_eq_some.1 hrest
  obtain rfl : ρ = .start := Lex.eq_start_of_part hcolons hend hτ
  have ht : Lex.start.run t = some τ := hend
  obtain rfl : u = (Element.colons ++ (e.label ++ (b ++ ['\n']))) ++ (e.body ++ Element.colons) :=
    List.append_cancel_right (hline.trans (by simp))
  refine ⟨⟨rfl, ht⟩, Shut.behind (Shut.behind ⟨':', rfl, by decide, by decide⟩ _) _, fun f => ?_⟩
  refine ((hinner e.body (Free.tidy hbody)).mono (fun n hn => ?_) (fun _ _ _ => id) fun _ => id).bind fun y _ =>
    .pure (fun n => Element.holds_callout e.label) trivial
  have hback := hn.behind (.inl (by simp)) (not_token_of_notMem hlead)
  exact (hback.before (.inr (by simp [Element.colons])) (not_token_of_notMem (by simp [Element.colons]))).mono fun _ => rfl

end

theorem childGrid : Carries (Renderer.shelveAll (Element.single? "ChildGrid") fun as => return Element.childGrid as) := by
  refine shelveAll (Element.takes_single _) (Markup.begins_single _) (by decide) fun σ τ u t as hr hrun hτ => ?_
  obtain ⟨inside, hinside, htext⟩ := Element.single?_eq_some hr
  have hname : Lex.Ungrouped "ChildGrid" := ⟨'C', "hildGrid", rfl, by decide⟩
  rw [htext] at hrun
  obtain ⟨rfl, hsound, ht⟩ := Lex.run_start_tag hname hrun (by simp [hinside])
  obtain rfl : u = '<' :: (("ChildGrid" ++ inside) ++ ['>']) :=
    List.append_cancel_right (htext.trans (by simp [Element.startTag]))
  exact ⟨⟨rfl, ht⟩, shut_tag ('<' :: ("ChildGrid" ++ inside)), fun f =>
    .pure (fun n hn => absurd hn.isInfix (not_token_tag hsound)) trivial⟩

end Carries

end DocPages
