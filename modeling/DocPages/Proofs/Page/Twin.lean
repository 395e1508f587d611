import DocPages.Proofs.Page.Breaks
import DocPages.Proofs.Page.Growth
import DocPages.Proofs.Page.Quiet
import DocPages.Proofs.Page.Thins

/-!
# Two pages side by side

One document in two styles of line breaks is rendered in two runs. As long as its text is calm both runs find the
same, pass by pass: they draw the same ids, put as many blocks on the shelf and report the same issues, and the texts
that they go on with differ in their breaks only.
-/

namespace DocPages

/-- As much has been done on both sides, with blocks that differ in their breaks. -/
structure Work.Restyled (w w' : Work) : Prop where
  ids : w.ids = w'.ids
  blocks : List.Forall₂ Breaks w.shelf.blocks w'.shelf.blocks
  issues : w.issues = w'.issues

theorem Work.Restyled.fresh : Work.fresh.Restyled Work.fresh := ⟨rfl, .nil, rfl⟩

/-- The two steps do the same, with related results. -/
def Twin {α β : Type} (R : α → β → Prop) (step : StateM Work α) (step' : StateM Work β) : Prop :=
  ∀ w w', w.Restyled w' → R (step.run w).1 (step'.run w').1 ∧ (step.run w).2.Restyled (step'.run w').2

namespace Twin

variable {α β γ δ : Type} {R : α → β → Prop} {S : γ → δ → Prop}

theorem pure {a : α} {b : β} (h : R a b) : Twin R (Pure.pure a) (Pure.pure b) := fun _ _ hw => ⟨h, hw⟩

theorem bind {step : StateM Work α} {step' : StateM Work β} {next : α → StateM Work γ} {next' : β → StateM Work δ}
    (h : Twin R step step') (hn : ∀ a b, R a b → Twin S (next a) (next' b)) :
    Twin S (step >>= next) (step' >>= next') := fun w w' hw =>
  hn _ _ (h w w' hw).1 _ _ (h w w' hw).2

theorem map {step : StateM Work α} {step' : StateM Work β} {f : α → γ} {g : β → δ} (h : Twin R step step')
    (hf : ∀ a b, R a b → S (f a) (g b)) : Twin S (do return f (← step)) (do return g (← step')) :=
  h.bind fun a b hab => pure (hf a b hab)

theorem mono {R' : α → β → Prop} {step : StateM Work α} {step' : StateM Work β} (h : Twin R step step')
    (hle : ∀ a b, R a b → R' a b) : Twin R' step step' := fun w w' hw =>
  ⟨hle _ _ (h w w' hw).1, (h w w' hw).2⟩

theorem withIds {step step' : StateM IdSupply α} {R : α → α → Prop}
    (h : ∀ ids, R (step.run ids).1 (step'.run ids).1 ∧ (step.run ids).2 = (step'.run ids).2) :
    Twin R (Work.withIds step) (Work.withIds step') := by
  intro w w' hw
  obtain ⟨hresult, hids⟩ := h w.ids
  have hleft : (Work.withIds step).run w = ((step.run w.ids).1, { w with ids := (step.run w.ids).2 }) := rfl
  have hright : (Work.withIds step').run w' = ((step'.run w'.ids).1, { w' with ids := (step'.run w'.ids).2 }) := rfl
  rw [hleft, hright, ← hw.ids]
  exact ⟨hresult, hids, hw.blocks, hw.issues⟩

theorem report (issue : Issue) : Twin (fun _ _ => True) (Work.report issue) (Work.report issue) := fun _ _ hw =>
  ⟨trivial, hw.ids, hw.blocks, congrArg (· ++ [issue]) hw.issues⟩

/-- Blocks of both sides go to the same place. -/
theorem shelve {block block' : Text} (h : Breaks block block') :
    Twin (fun x y => x = y ∧ ∃ n, x = Shelf.place n) (Work.shelve block) (Work.shelve block') := by
  intro w w' hw
  have hplace : Shelf.place w.shelf.size = Shelf.place w'.shelf.size :=
    congrArg Shelf.place hw.blocks.length_eq
  exact ⟨⟨hplace, w.shelf.size, rfl⟩, hw.ids, List.rel_append hw.blocks (.cons h .nil), hw.issues⟩

theorem mapM {as : List α} {bs : List β} (h : List.Forall₂ R as bs) {f : α → StateM Work γ} {g : β → StateM Work δ}
    (hf : ∀ a ∈ as, ∀ b, R a b → Twin S (f a) (g b)) : Twin (List.Forall₂ S) (as.mapM f) (bs.mapM g) := by
  induction h with
  | nil => exact pure .nil
  | cons hab _ ih =>
    rw [List.mapM_cons, List.mapM_cons]
    refine (hf _ List.mem_cons_self _ hab).bind fun c d hcd => ?_
    exact (ih fun a ha => hf a (List.mem_cons_of_mem _ ha)).map fun cs ds hcds => .cons hcd hcds

/-- Passes go one by one over texts that stay related. -/
theorem passes {R : Text → Text → Prop} {ps qs : List (Text → StateM Work Text)}
    (h : List.Forall₂ (fun p q => ∀ s t, R s t → Twin R (p s) (q t)) ps qs) {s t : Text} (hst : R s t) :
    Twin R (ps.foldlM (fun t pass => pass t) s) (qs.foldlM (fun t pass => pass t) t) := by
  induction h generalizing s t with
  | nil => exact pure hst
  | cons hpq _ ih =>
    rw [List.foldlM_cons, List.foldlM_cons]
    exact (hpq s t hst).bind fun x y hxy => ih hxy

/-- The result of a pass: on both sides the same up to breaks, and in place of what it has read, tags are taken
out and passages put in. -/
def Replaced (u x y : Text) : Prop := Breaks x y ∧ Thins u x

/-- Two searches find the same, so what is written for it decides. -/
theorem mapFoundM {R : α → α → Prop} {read : Reader Char α} (hread : ReadsThrough R read) (htakes : Takes read)
    {write write' : α → StateM Work Text} {s t : Text} (h : Breaks s t)
    (hwrite : ∀ u rest a b, u ++ rest <:+ s → read (u ++ rest) = some (a, rest) → R a b →
      Twin (Replaced u) (write a) (write' b)) :
    Twin (Replaced s) (Text.mapFoundM read write s) (Text.mapFoundM read write' t) := by
  have hside := hread.sideBySide htakes h
  clear h
  induction hside with
  | nil => exact pure ⟨.nil, .nil⟩
  | @kept c s t hs ht _ ih =>
    rw [Text.mapFoundM_kept hs, Text.mapFoundM_kept ht]
    have hrest := ih fun u rest a b hu => hwrite u rest a b (hu.trans (List.suffix_cons c s))
    exact hrest.map fun x y hxy => ⟨hxy.1.cons c, hxy.2.keep c⟩
  | @turn w s t hw hs ht _ ih =>
    rw [Text.mapFoundM_kept hs, Text.mapFoundM_append ht]
    have hrest := ih fun u rest a b hu => hwrite u rest a b (hu.trans (List.suffix_cons '\n' s))
    exact hrest.map fun x y hxy => ⟨.turn hw hxy.1, hxy.2.keep '\n'⟩
  | @found u v s t a b hu hv hs ht hab _ _ ih =>
    rw [Text.mapFoundM_front hu hs, Text.mapFoundM_front hv ht]
    refine (hwrite u s a b (List.suffix_refl _) hs hab).bind fun x y hxy => ?_
    have hrest := ih fun u' rest a b hu' => hwrite u' rest a b (hu'.trans (List.suffix_append u s))
    exact hrest.map fun x' y' hxy' => ⟨hxy.1.append hxy'.1, hxy.2.append hxy'.2⟩

end Twin

/-! ## Texts in which line breaks decide nothing -/

/-- The text holds none of the parts by which code, callouts and authoring artifacts are recognised. -/
def Unmarked (t : Text) : Prop := ∀ part ∈ lineParts, ¬ part <:+: t

theorem Calm.unmarked {t : Text} (h : Calm t) : Unmarked t := fun part hpart =>
  not_isInfix_of_untouched (unbroken_lineParts part hpart).2 (h part hpart)

theorem Calm.of_isInfix {s t : Text} (h : Calm t) (hs : s <:+: t) : Calm s := fun part hpart =>
  untouched_of_isInfix (h part hpart) hs

namespace Unmarked

variable {s t : Text}

theorem breaks (hs : Unmarked s) (h : Breaks s t) : Unmarked t := fun part hpart ht =>
  hs part hpart ((h.infix_iff (unbroken_lineParts part hpart).1).2 ht)

/-- What begins with one of the parts is not found. -/
theorem mapFoundM {α : Type} (h : Unmarked t) {read : Reader Char α} {c : Char} {part : Text} (hread : Begins read (c :: part))
    (hpart : c :: part ∈ lineParts) (write : α → StateM Work Text) : Text.mapFoundM read write t = pure t :=
  Text.mapFoundM_of_refused (Text.refused_of_clear hread (Text.clear_of_infix_free (h _ hpart) (by simp)))

theorem replaceFenced (h : Unmarked t) (write : Text → StateM Work Text) : Code.replaceFenced write t = pure t :=
  Code.replaceFenced_of_no_fence (fun c hc => h _ (by rcases hc with rfl | rfl <;> decide)) write

theorem artifact_strip (h : Unmarked t) : Artifact.strip t = t := by
  refine Markup.strip_eq_self (fun a b hab _ => ?_) fun line hline => Bool.eq_false_iff.2 fun hsays => ?_
  · rw [List.append_nil]
    cases hread : Artifact.mark? b with
    | none => rfl
    | some p =>
      obtain ⟨_, rest⟩ := p
      obtain ⟨blanks, inside, more, -, -, -, hb⟩ := Artifact.mark?_eq_some hread
      exact absurd ⟨a ++ ("<!--" ++ blanks), inside ++ '>' :: (more ++ rest), by rw [hab, hb]; simp⟩ (h "AUTO:" (by decide))
  · obtain ⟨words, hwords, hpart⟩ := Markup.exists_infix_of_saysEmpty hsays
    exact h words (List.mem_append_right _ hwords) (hpart.trans (infix_of_mem_splitWhere hline))

end Unmarked

/-! ## The passes -/

/-- Calm texts that differ in their breaks, with at most `n` brackets that may open a component. -/
structure Kin (n : Nat) (s t : Text) : Prop where
  breaks : Breaks s t
  calm : Calm s
  bounded : opens s ≤ n

/-- The regions inside components are rendered alike if they have fewer brackets. -/
def TwinInside (n : Nat) (inner inner' : Text → StateM Work Text) : Prop :=
  ∀ s t, Breaks s t → Calm s → opens s < n → Twin Breaks (inner s) (inner' t)

section
variable {n : Nat} {s t x y name : Text}

theorem Kin.replaced (h : Kin n s t) (hxy : Twin.Replaced s x y) : Kin n x y :=
  ⟨hxy.1, hxy.2.calm h.calm, hxy.2.opens_le.trans h.bounded⟩

/-- What stands inside a component is calm, and there are fewer brackets in it. -/
theorem Kin.inside {b : Text} (h : Kin n s t) (hname : name.head?.any leads = true)
    (htag : Element.startTag name ++ (x ++ (b ++ y)) <:+: s) : Calm b ∧ opens b < n := by
  cases name with
  | nil => cases hname
  | cons c name =>
    have htag : '<' :: c :: ((name ++ x) ++ (b ++ y)) <:+: s := by simpa [Element.startTag] using htag
    have hbody : b <:+: '<' :: c :: ((name ++ x) ++ (b ++ y)) := ⟨'<' :: c :: (name ++ x), y, by simp⟩
    refine ⟨h.calm.of_isInfix (hbody.trans htag), ?_⟩
    exact (opens_inside_lt hname (name ++ x) b y).trans_le ((opens_le_of_isInfix htag).trans h.bounded)

namespace Twin

variable {α : Type} {R : α → α → Prop} {read : Reader Char α}

/-- What is read begins with a bracket, so it is taken out as a tag. -/
theorem exists_bracket {u rest : Text} {a : α} (htakes : Takes read) (hbegins : Begins read ('<' :: name))
    (h : read (u ++ rest) = some (a, rest)) : ∃ x, u = '<' :: x := by
  have hstart : '<' :: name <+: u ++ rest := by
    by_contra hnot
    rw [hbegins _ hnot] at h
    cases h
  obtain ⟨v, hv, he⟩ := htakes _ _ _ h
  obtain rfl : u = v := List.append_cancel_right he
  obtain ⟨c, u, rfl⟩ := List.exists_cons_of_ne_nil hv
  obtain ⟨rfl, -⟩ := List.cons_prefix_cons.1 hstart
  exact ⟨u, rfl⟩

theorem shelve_replaced {a b : Html} (u : Text) (h : a.Restyled b) :
    Twin (Replaced ('<' :: u)) (Work.shelve a.write) (Work.shelve b.write) :=
  (shelve h.write).mono fun x y hxy => by
    obtain ⟨rfl, n, rfl⟩ := hxy
    exact ⟨.refl _, .tag_inset u (inset_place n)⟩

theorem shelveAll {html html' : α → StateM Work Html} (hread : ReadsThrough R read) (htakes : Takes read)
    (hbegins : Begins read (Element.startTag name)) (h : Kin n s t)
    (hhtml : ∀ u rest a b, u ++ rest <:+ s → read (u ++ rest) = some (a, rest) → R a b →
      Twin Html.Restyled (html a) (html' b)) :
    Twin (Kin n) (Renderer.shelveAll read html s) (Renderer.shelveAll read html' t) := by
  refine (mapFoundM hread htakes h.breaks fun u rest a b hu hr hab => ?_).mono fun x y hxy => h.replaced hxy
  obtain ⟨u, rfl⟩ := exists_bracket htakes hbegins hr
  exact (hhtml _ rest a b hu hr hab).bind fun x y hxy => shelve_replaced u hxy

variable {inner inner' : Text → StateM Work Text}

theorem described {html : Attributes → Text → Html} (hname : Unbroken name) (hlead : name.head?.any leads = true)
    (hhtml : ∀ as bs x y, as.Restyled bs → Breaks x y → (html as x).Restyled (html bs y)) (hinner : TwinInside n inner inner')
    (h : Kin n s t) :
    Twin (Kin n)
      (Renderer.shelveAll (Element.described? name) (fun e => do return html e.attributes (← inner e.body)) s)
      (Renderer.shelveAll (Element.described? name) (fun e => do return html e.attributes (← inner' e.body)) t) := by
  refine shelveAll (Element.readsThrough_described hname) (Element.takes_described name)
    (Markup.begins_described name) h fun u rest e f hu hr hef => ?_
  obtain ⟨inside, -, -, htext⟩ := Element.described?_eq_some hr
  obtain ⟨hcalm, hopens⟩ := h.inside (x := inside ++ ['>']) (b := e.body) (y := Element.endTag name ++ rest) hlead
    (by simpa [htext] using hu.isInfix)
  exact (hinner e.body f.body hef.2 hcalm hopens).map fun x y hxy => hhtml _ _ x y hef.1 hxy

theorem titled (hname : Unbroken name) (hlead : name.head?.any leads = true) (hinner : TwinInside n inner inner')
    (h : Kin n s t) :
    Twin (Kin n)
      (Renderer.shelveAll (Element.titled? name) (fun e => do return Element.accordion e.label (← inner e.body)) s)
      (Renderer.shelveAll (Element.titled? name) (fun e => do return Element.accordion e.label (← inner' e.body)) t) := by
  refine shelveAll (Element.readsThrough_titled hname) (Element.takes_titled name)
    (Markup.begins_titled name) h fun u rest e f hu hr hef => ?_
  obtain ⟨b, b', -, -, -, htext⟩ := Element.titled?_eq_some hr
  obtain ⟨hcalm, hopens⟩ := h.inside (x := b ++ ("title=\"" ++ (e.label ++ '"' :: (b' ++ ['>'])))) (b := e.body)
    (y := Element.endTag name ++ rest) hlead (by simpa [htext] using hu.isInfix)
  exact (hinner e.body f.body hef.2 hcalm hopens).map fun x y hxy => Element.restyled_accordion hef.1 hxy

theorem plain {html : Text → Html} (hname : Unbroken name) (hlead : name.head?.any leads = true)
    (hhtml : ∀ x y, Breaks x y → (html x).Restyled (html y)) (hinner : TwinInside n inner inner') (h : Kin n s t) :
    Twin (Kin n) (Renderer.shelveAll (Element.plain? name) (fun body => do return html (← inner body)) s)
      (Renderer.shelveAll (Element.plain? name) (fun body => do return html (← inner' body)) t) := by
  refine shelveAll (Element.readsThrough_plain hname) (Element.takes_plain name)
    (Markup.begins_plain name) h fun u rest a b hu hr hab => ?_
  obtain ⟨blanks, -, -, htext⟩ := Element.plain?_eq_some hr
  obtain ⟨hcalm, hopens⟩ := h.inside (x := blanks ++ ['>']) (b := a) (y := Element.endTag name ++ rest) hlead
    (by simpa [htext] using hu.isInfix)
  exact (hinner a b hab hcalm hopens).map fun x y hxy => hhtml x y hxy

/-- Items in both bodies are found one by one; without any the tags around the body are taken out. -/
theorem shelveGroups {item : Text} (hname : Unbroken name) (hitem : Unbroken item) (hlead : name.head?.any leads = true)
    {html html' : List Element.Labelled → StateM Work Html} (h : Kin n s t)
    (hhtml : ∀ items items', List.Forall₂ Element.Labelled.Restyled items items' →
      (∀ e ∈ items, Calm e.body ∧ opens e.body < n) → Twin Html.Restyled (html items) (html' items')) :
    Twin (Kin n) (Renderer.shelveGroups name item html s) (Renderer.shelveGroups name item html' t) := by
  refine (mapFoundM (Element.readsThrough_plain hname) (Element.takes_plain name) h.breaks
    fun u rest body body' hu hr hbody => ?_).mono fun x y hxy => h.replaced hxy
  obtain ⟨blanks, -, -, htext⟩ := Element.plain?_eq_some hr
  obtain ⟨hcalm, hopens⟩ := h.inside (x := blanks ++ ['>']) (b := body) (y := Element.endTag name ++ rest) hlead
    (by simpa [htext] using hu.isInfix)
  have hinside : ∀ e ∈ found (Element.titled? item) body, Calm e.body ∧ opens e.body < n := by
    intro e he
    obtain ⟨v, w, hsuffix, hread⟩ := (Element.takes_titled item).of_mem_found he
    obtain ⟨b, b', -, -, -, hv⟩ := Element.titled?_eq_some hread
    have hpart : e.body <:+: body := by
      refine List.IsInfix.trans ⟨Element.startTag item ++ (b ++ ("title=\"" ++ (e.label ++ '"' :: (b' ++ ['>'])))),
        Element.endTag item ++ w, ?_⟩ hsuffix.isInfix
      simp [hv]
    exact ⟨hcalm.of_isInfix hpart, (opens_le_of_isInfix hpart).trans_lt hopens⟩
  have hitems := ((Element.readsThrough_titled hitem).sideBySide (Element.takes_titled item) hbody).found_related
  generalize found (Element.titled? item) body = items at hinside hitems ⊢
  generalize found (Element.titled? item) body' = items' at hitems ⊢
  obtain ⟨x, rfl⟩ := exists_bracket (Element.takes_plain name) (Markup.begins_plain name) hr
  cases hitems with
  | nil =>
    refine pure ⟨hbody, ?_⟩
    have htag : '<' :: x = '<' :: ((name ++ (blanks ++ ['>'])) ++ (body ++ Element.endTag name)) := by
      refine List.append_cancel_right (htext.trans ?_)
      simp [Element.startTag]
    have hend : Thins (body ++ Element.endTag name) (body ++ []) := (Thins.tag _).front body
    rw [htag]
    rw [List.append_nil] at hend
    exact .drop _ hend
  | cons hef hrest => exact (hhtml _ _ (.cons hef hrest) hinside).bind fun a b hab => shelve_replaced x hab

/-! ### Tags of the API reference -/

theorem reject (u : Text) (c : Api.Component) (f : Api.Fault) :
    Twin (Replaced ('<' :: u)) (Api.reject c f) (Api.reject c f) :=
  (report _).bind fun _ _ _ => shelve_replaced u (.refl _)

theorem place (u : Text) (maxDepth : Int) (c : Api.Component) {o o' : Api.Occurrence} (h : o.Restyled o') :
    Twin (Replaced ('<' :: u)) (Api.place maxDepth c o) (Api.place maxDepth c o') := by
  cases h with
  | bare => exact pure ⟨.nil, .tag u⟩
  | unclosed => exact reject u c .unbalanced
  | payload h =>
    simp only [Api.place, Api.payload?_of_breaks h]
    split
    · exact reject u c .invalid
    · refine (withIds (R := Eq) fun ids => ⟨rfl, rfl⟩).bind fun card card' hcard => ?_
      subst hcard
      cases card with
      | none => exact pure ⟨.nil, .tag u⟩
      | some card =>
        refine (shelve (.refl card.write)).bind fun x y hxy => ?_
        obtain ⟨rfl, k, rfl⟩ := hxy
        refine pure ⟨.refl _, ?_⟩
        split
        · exact .tag_inset u (inset_requestPart k)
        · exact .tag_inset u (inset_place k)

theorem placeAll (maxDepth : Int) (c : Api.Component) (h : Kin n s t) :
    Twin (Kin n) (Api.placeAll maxDepth c s) (Api.placeAll maxDepth c t) := by
  refine (mapFoundM (Api.readsThrough_occurrence c) (Api.takes_occurrence c) h.breaks
    fun u rest o o' _ hr ho => ?_).mono fun x y hxy => h.replaced hxy
  obtain ⟨u, rfl⟩ := exists_bracket (Api.takes_occurrence c) (Markup.begins_occurrence c) hr
  exact place u maxDepth c ho

/-- The marks are taken out, and the opening and the end of the section put in. -/
theorem thins_wrapRequest (t : Text) (ids : IdSupply) : Thins t ((Api.wrapRequest t).run ids).1 := by
  rcases Api.wrapRequest_run t ids with hsame | ⟨before, inner, last, after, id, hlast, ht, hrun⟩
  · rw [hsame]
    exact .refl t
  · obtain ⟨m, hm⟩ : ∃ m, Api.requestMark = '<' :: m := ⟨_, rfl⟩
    have hback : Thins (last ++ after) ("\n\n</div>\n\n" ++ after) := by
      refine .inset inset_requestEnd ?_
      rcases hlast with ⟨-, rfl⟩ | rfl
      · exact .refl after
      · rw [hm]
        exact .drop m (.refl after)
    have hinner : Thins (inner ++ (last ++ after)) (Text.replace Api.requestMark [] inner ++ ("\n\n</div>\n\n" ++ after)) := by
      rw [hm]
      exact (Thins.replace m inner).append hback
    have hopening := Thins.inset (inset_requestOpening id) hinner
    rw [hrun, ht]
    refine .front before ?_
    rw [hm] at hopening ⊢
    refine .drop m ?_
    simpa only [List.append_assoc] using hopening

theorem placeComponents (maxDepth : Int) (h : Kin n s t) :
    Twin (Kin n) (Api.placeComponents maxDepth s) (Api.placeComponents maxDepth t) := by
  have htags : ∀ cs : List Api.Component, ∀ s t, Kin n s t →
      Twin (Kin n) (cs.foldlM (fun t c => Api.placeAll maxDepth c t) s) (cs.foldlM (fun t c => Api.placeAll maxDepth c t) t) := by
    intro cs
    induction cs with
    | nil => exact fun s t h => pure h
    | cons c cs ih =>
      intro s t h
      rw [List.foldlM_cons, List.foldlM_cons]
      exact (placeAll maxDepth c h).bind fun x y hxy => ih x y hxy
  refine (htags _ s t h).bind fun x y hxy => withIds fun ids => ?_
  obtain ⟨hbreaks, hids⟩ := Api.breaks_wrapRequest hxy.breaks ids
  exact ⟨hxy.replaced ⟨hbreaks, thins_wrapRequest x ids⟩, hids⟩

end Twin

end

/-! ## Pages -/

/-- The engine and the resolver of media paths keep line breaks apart from all else. -/
structure Renderer.Steady (r : Renderer) : Prop where
  engine : ∀ s t, Breaks s t → Breaks (r.engine s) (r.engine t)
  resolve : ∀ s t, Breaks s t → Breaks (r.resolve s) (r.resolve t)
  mediaRoot : Unbroken r.mediaRoot

namespace Renderer

variable {r : Renderer} {n : Nat} {s t : Text} {inner inner' : Text → StateM Work Text}

theorem twin_passes (r : Renderer) (hinner : TwinInside n inner inner') :
    List.Forall₂ (fun p q => ∀ s t, Kin n s t → Twin (Kin n) (p s) (q t)) (r.passes inner) (r.passes inner') := by
  unfold passes
  refine .cons (fun s t h => ?_) (.cons (fun s t h => ?_) (.cons (fun s t h => ?_) (.cons (fun s t h => ?_)
    (.cons (fun s t h => ?_) (.cons (fun s t h => ?_) (.cons (fun s t h => ?_) (.cons (fun s t h => ?_)
      (.cons (fun s t h => ?_) (.cons (fun s t h => ?_) (.cons (fun s t h => ?_) .nil))))))))))
  · simp only [shelveAll]
    rw [h.calm.unmarked.mapFoundM Markup.begins_callout (by decide),
      (h.calm.unmarked.breaks h.breaks).mapFoundM Markup.begins_callout (by decide)]
    exact .pure h
  · exact .titled (by decide) (by decide) hinner h
  · refine .shelveGroups (by decide) (by decide) (by decide) h fun items items' hitems hinside => ?_
    refine (Twin.withIds (R := Eq) fun ids => ⟨rfl, rfl⟩).bind fun id id' hid => ?_
    subst hid
    refine (Twin.mapM (S := fun p q : Text × Text => Breaks p.1 q.1 ∧ Breaks p.2 q.2) hitems fun e he f hef => ?_).map
      fun parts parts' hparts => Element.restyled_tabs id hparts
    exact (hinner e.body f.body hef.2 (hinside e he).1 (hinside e he).2).map fun x y hxy => ⟨hef.1, hxy⟩
  · refine .shelveGroups (by decide) (by decide) (by decide) h fun items items' hitems hinside => ?_
    refine (Twin.mapM (S := fun p q : Text × Text => Breaks p.1 q.1 ∧ Breaks p.2 q.2) hitems fun e he f hef => ?_).map
      fun parts parts' hparts => Element.restyled_steps hparts
    exact (hinner e.body f.body hef.2 (hinside e he).1 (hinside e he).2).map fun x y hxy => ⟨hef.1, hxy⟩
  · exact .described (by decide) (by decide) (fun _ _ _ _ => Element.restyled_cardGroup) hinner h
  · exact .described (by decide) (by decide) (fun _ _ _ _ => Element.restyled_card) hinner h
  · exact .described (by decide) (by decide) (fun _ _ _ _ => Element.restyled_endpoint) hinner h
  · exact .plain (by decide) (by decide) (fun _ _ => Element.restyled_parameterTable) hinner h
  · exact .placeComponents r.maxDepth h
  · exact .shelveAll (Element.readsThrough_single (by decide)) (Element.takes_single _) (Markup.begins_single _) h
      fun u rest as bs _ _ hab => .pure (Element.restyled_childGrid hab)
  · exact .described (by decide) (by decide) (fun _ _ _ _ => Element.restyled_browserMockup) hinner h

theorem twin_placeElements (r : Renderer) (hinner : TwinInside n inner inner') (h : Kin n s t) :
    Twin (Kin n) (r.placeElements inner s) (r.placeElements inner' t) := by
  have hright := h.calm.unmarked.breaks h.breaks
  have hskip {inner : Text → StateM Work Text} {t : Text} (ht : Unmarked t) :
      r.placeElements inner t = (r.passes inner).foldlM (fun t pass => pass t) t := by
    rw [placeElements_eq, shelveAll, ht.mapFoundM Markup.begins_code (by decide), pure_bind, ht.replaceFenced, pure_bind]
  rw [hskip h.calm.unmarked, hskip hright]
  exact .passes (twin_passes r hinner) h

/-- Regions are rendered alike, each with as many components around each other as there may be in it. -/
theorem twin_renderWithin (hr : r.Steady) {depth depth' : Nat} (h : Kin n s t) (hdepth : n < depth) (hdepth' : n < depth') :
    Twin Breaks (renderWithin r depth s) (renderWithin r depth' t) := by
  induction depth generalizing depth' n s t with
  | zero => omega
  | succ depth ih =>
    cases depth' with
    | zero => omega
    | succ depth' =>
      have hinner : TwinInside n (fun t => renderWithin r depth (Text.strip t)) fun t =>
          renderWithin r depth' (Text.strip t) := by
        intro s t hst hcalm hopens
        have hstrip := Text.trim_isInfix isBlank s
        refine ih (n := opens s) ⟨hst.strip, hcalm.of_isInfix hstrip, opens_le_of_isInfix hstrip⟩ ?_ ?_ <;> omega
      have hright := h.calm.unmarked.breaks h.breaks
      rw [renderWithin, renderWithin, h.calm.unmarked.artifact_strip, hright.artifact_strip]
      exact (twin_placeElements r hinner h).map fun x y hxy =>
        hr.engine _ _ (Media.breaks_resolveAll hr.mediaRoot hr.resolve hxy.breaks)

theorem twin_render (hr : r.Steady) (h : Breaks s t) (hcalm : Calm s) : Twin Breaks (r.render s) (r.render t) := by
  have hlength := h.length_le
  have hopens := opens_le_length s
  exact twin_renderWithin hr ⟨h, hcalm, Nat.le_refl _⟩ (by omega) (by omega)

end Renderer

end DocPages
