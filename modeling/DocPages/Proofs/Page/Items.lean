import DocPages.Proofs.Page.Lossless

/-!
# Items of groups

In a tidy text a group holds blanks and items. Each of its items is found, with the tokens that stand in it, so the
panels of tabs and the bodies of steps hold all that stood between the tags of the group.
-/

namespace DocPages

open DocPages.Shelf (token place)

namespace Zone

/-- Only the end tag of an item leads between items. -/
theorem eq_of_behind_between {g : Group} {x : Text} (h : behind x = between g) : x = '/' :: g.item := by
  unfold behind at h
  split at h
  · cases h
  · split at h
    · cases h
    · split at h
      · next hx =>
        cases h
        exact hx
      · split at h
        · next hx =>
          cases h
          exact hx
        · cases h

end Zone

namespace Lex

variable {g : Group} {z : Zone} {t body : Text} {n : Nat} {f : Bool}

theorem item_ne_name (g g' : Group) : g.item ≠ g'.name := by cases g <;> cases g' <;> decide

theorem quote_of_opensItem {x : Text} (h : g.opensItem x = true) : '"' ∈ x := by
  obtain ⟨b, l, b', -, -, -, -, rfl⟩ := Group.opensItem_eq_some h
  simp

/-- On the way to a place between items an item ends. -/
theorem endTag_of_between (hz : z ≠ .between g) (h : run ⟨z, none⟩ t = some ⟨.between g, none⟩) :
    Element.endTag g.item <:+: t := by
  induction hn : t.length using Nat.strongRecOn generalizing t z with
  | ind n ih =>
    cases t with
    | nil => exact absurd (congrArg Lex.zone (Option.some.inj h)) hz
    | cons c t =>
      by_cases hc : c = '<'
      · subst hc
        obtain ⟨ρ, hstep, hrest⟩ := run_cons_eq_some.1 h
        obtain rfl : (⟨z, some []⟩ : Lex) = ρ := by simpa [step] using hstep
        obtain ⟨y, u, -, -, rfl, -, -, hback⟩ := exists_close hrest rfl rfl
        rw [List.nil_append] at hback
        by_cases hy : Zone.behind y = .between g
        · obtain rfl := Zone.eq_of_behind_between hy
          exact ⟨[], u, by simp [Element.endTag]⟩
        · have hlater := ih u.length (by rw [← hn]; simp; omega) hy hback rfl
          exact hlater.trans ⟨'<' :: (y ++ ['>']), [], by simp⟩
      · obtain ⟨ρ, hstep, hrest⟩ := run_cons_eq_some.1 h
        obtain rfl : (⟨z, none⟩ : Lex) = ρ := by
          have hsame : (z = .anywhere ∨ isBlank c = true) ∧ (⟨z, none⟩ : Lex) = ρ := by simpa [step, hc] using hstep
          exact hsame.2
        exact (ih t.length (by rw [← hn]; simp) hz hrest rfl).trans (List.suffix_cons c t).isInfix

/-- What is found between the tags of a group. -/
structure Itemized (items : List Element.Labelled) (f : Bool) (body : Text) : Prop where
  tidy : ∀ e ∈ items, Tidy e.body
  lined : ∀ n, Lined f n body → ∃ e ∈ items, Lined true n e.body

theorem Itemized.item {items : List Element.Labelled} {x l : Text} (hsound : isSound x = true) (hbody : Tidy body)
    (h : Itemized items false t) :
    Itemized (⟨l, body⟩ :: items) f ('<' :: (x ++ '>' :: (body ++ (Element.endTag g.item ++ t)))) where
  tidy := List.forall_mem_cons.2 ⟨hbody, h.tidy⟩
  lined n hn := by
    have htext : '<' :: (x ++ '>' :: (body ++ (Element.endTag g.item ++ t))) =
        ('<' :: (x ++ ['>'])) ++ (body ++ (Element.endTag g.item ++ t)) := by simp
    rw [htext] at hn
    have hback := hn.behind (.inl (shut_tag ('<' :: x)).isAlphanum_getLast) (not_token_tag hsound)
    rcases hback.cut (.inr (by simp [Element.endTag])) with hin | hback
    · exact ⟨_, List.mem_cons_self, hin.mono fun _ => rfl⟩
    · have hend : 'D' ∉ Element.endTag g.item := by cases g <;> decide
      have hshut : Shut (Element.endTag g.item) := shut_tag ('<' :: '/' :: g.item)
      have hlater := hback.behind (.inl hshut.isAlphanum_getLast) (not_token_of_notMem hend)
      rw [hshut.freshBehind] at hlater
      obtain ⟨e, he, hin⟩ := h.lined n hlater
      exact ⟨e, List.mem_cons_of_mem _ he, hin⟩

section
variable (hz : z = .opened g ∨ z = .between g)
include hz

/-- Outside its items a group holds blanks only. -/
theorem blank_between {c : Char} (hc : c ≠ '<') (h : run ⟨z, none⟩ (c :: t) = some ⟨.between g, none⟩) :
    isBlank c = true ∧ run ⟨z, none⟩ t = some ⟨.between g, none⟩ := by
  obtain ⟨ρ, hstep, hrest⟩ := run_cons_eq_some.1 h
  have hsame : (z = .anywhere ∨ isBlank c = true) ∧ (⟨z, none⟩ : Lex) = ρ := by simpa [step, hc] using hstep
  obtain ⟨hgap, rfl⟩ := hsame
  refine ⟨hgap.resolve_left ?_, hrest⟩
  rintro rfl
  simp at hz

/-- A tag in a group opens an item, since the end of the group is not in its body. -/
theorem exists_item_tag (hend : ¬ Element.endTag g.name <:+: '<' :: t)
    (h : run ⟨z, none⟩ ('<' :: t) = some ⟨.between g, none⟩) :
    ∃ y u, t = y ++ '>' :: u ∧ isSound y = true ∧ g.opensItem y = true ∧
      run ⟨.anywhere, none⟩ u = some ⟨.between g, none⟩ := by
  obtain ⟨ρ, hstep, hrest⟩ := run_cons_eq_some.1 h
  obtain rfl : (⟨z, some []⟩ : Lex) = ρ := by simpa [step] using hstep
  obtain ⟨y, u, -, -, rfl, hsound, hadmits, hback⟩ := exists_close hrest rfl rfl
  rw [List.nil_append] at hsound hadmits hback
  have hitem : g.opensItem y = true := by
    rcases hz with rfl | rfl
    · exact hadmits
    · rcases Bool.or_eq_true_iff.1 hadmits with hitem | hname
      · exact hitem
      · obtain rfl : y = '/' :: g.name := by simpa using hname
        exact absurd ⟨[], u, by simp [Element.endTag]⟩ hend
  rw [Zone.behind_of_quote (quote_of_opensItem hitem)] at hback
  exact ⟨y, u, rfl, hsound, hitem, hback⟩

/-- An item is read with its body, which is tidy, and what follows it is again between items. -/
theorem exists_item (hend : ¬ Element.endTag g.name <:+: '<' :: t)
    (h : run ⟨z, none⟩ ('<' :: t) = some ⟨.between g, none⟩) :
    ∃ y l inside w, t = y ++ '>' :: (inside ++ (Element.endTag g.item ++ w)) ∧ isSound y = true ∧ Tidy inside ∧
      Element.titled? g.item ('<' :: t) = some (⟨l, inside⟩, w) ∧
      run ⟨.between g, none⟩ w = some ⟨.between g, none⟩ := by
  obtain ⟨y, u, rfl, hsound, hitem, hback⟩ := exists_item_tag hz hend h
  obtain ⟨l, hl⟩ := titled?_item hitem
  cases hbody : Element.body? g.item u with
  | none => exact absurd (endTag_of_between (by simp) hback) (Text.cut?_eq_none_iff.1 hbody)
  | some p =>
    obtain ⟨inside, w⟩ := p
    obtain rfl := Element.body?_eq_some hbody
    have hread := hl (inside ++ (Element.endTag g.item ++ w))
    rw [hbody] at hread
    obtain ⟨ρ, hinside, hclose⟩ := run_append_eq_some.1 hback
    have htag : Element.endTag g.item ++ w = '<' :: (('/' :: g.item) ++ '>' :: w) := by simp [Element.endTag]
    rw [htag] at hclose
    obtain ⟨htag, -, -, hadmits, hlater⟩ := run_tag hclose (by cases g <;> decide)
    obtain ⟨z', tag⟩ := ρ
    obtain rfl : tag = none := htag
    obtain rfl : z' = .anywhere := Zone.eq_anywhere_of_slash hadmits (item_ne_name g)
    rw [Zone.behind_item] at hlater
    exact ⟨y, l, inside, w, rfl, hsound, Free.tidy hinside, by simpa using hread, hlater⟩

end

/-- The items of a group are found one behind the other. -/
theorem itemized_found (hz : z = .opened g ∨ z = .between g) (h : run ⟨z, none⟩ body = some ⟨.between g, none⟩)
    (hend : ¬ Element.endTag g.name <:+: body) :
    Itemized (found (Element.titled? g.item) body) f body ∧
      (z = .opened g → found (Element.titled? g.item) body ≠ []) := by
  induction hn : body.length using Nat.strongRecOn generalizing body z f with
  | ind n ih =>
    cases body with
    | nil =>
      refine ⟨⟨by simp [found, pieces, piecesFrom], fun n hn => absurd hn.isInfix fun hi => ?_⟩, ?_⟩
      · exact Shelf.token_ne_nil n (List.infix_nil.1 hi)
      · rintro rfl
        cases h
    | cons c t =>
      by_cases hc : c = '<'
      · subst hc
        obtain ⟨y, l, inside, w, rfl, hsound, htidy, hread, hlater⟩ := exists_item hz hend h
        have htext : '<' :: (y ++ '>' :: (inside ++ (Element.endTag g.item ++ w))) =
            '<' :: (y ++ '>' :: (inside ++ Element.endTag g.item)) ++ w := by simp
        have hsuffix : w <:+ '<' :: (y ++ '>' :: (inside ++ (Element.endTag g.item ++ w))) :=
          ⟨'<' :: (y ++ '>' :: (inside ++ Element.endTag g.item)), htext.symm⟩
        have hrest := (ih w.length (by rw [← hn]; simp; omega) (.inr rfl) hlater
          (fun hi => hend (hi.trans hsuffix.isInfix)) (f := false) rfl).1
        rw [htext] at hread ⊢
        rw [found_front (by simp) hread, ← htext]
        exact ⟨hrest.item hsound htidy, fun _ => by simp⟩
      · obtain ⟨hblank, hrest⟩ := blank_between hz hc h
        have hread : Element.titled? g.item (c :: t) = none :=
          Markup.begins_titled g.item _ fun hi => hc (List.cons_prefix_cons.1 hi).1.symm
        obtain ⟨⟨htidy, hlined⟩, hne⟩ := ih t.length (by rw [← hn]; simp) hz hrest
          (fun hi => hend (hi.trans (List.suffix_cons c t).isInfix)) (f := c == '\n') rfl
        rw [found_kept hread]
        refine ⟨⟨htidy, fun n hn => hlined n ?_⟩, hne⟩
        refine hn.cons_inv.resolve_left fun hfront => ?_
        obtain ⟨-, b, hb⟩ := hfront
        have hD : c = 'D' := (List.cons.inj hb).1.symm
        rw [hD] at hblank
        revert hblank
        decide

end Lex

namespace Carries

open Renderer (shelveGroups)

variable {inner : Text → StateM Work Text}

theorem group (g : Group) {html : List Element.Labelled → StateM Work Html}
    (hhtml : ∀ items, (∀ e ∈ items, Tidy e.body) →
      Keeps (fun n => ∃ e ∈ items, Lined true n e.body) (fun h n => h.Holds (token n)) (fun _ => True) (html items)) :
    Carries (shelveGroups g.name g.item html) := by
  refine mapFoundM (Element.takes_plain _) (Markup.begins_plain _) (by decide) fun σ τ u t body hr hrun hτ => ?_
  obtain ⟨b, hb, hfree, htext⟩ := Element.plain?_eq_some hr
  have hname : '>' ∉ g.name ++ b := by
    simp only [List.mem_append, not_or]
    exact ⟨by cases g <;> decide, fun hmem => absurd (hb _ hmem) (by decide)⟩
  -- The start tag, the items and the end tag.
  have hstart : u ++ t = '<' :: ((g.name ++ b) ++ '>' :: (body ++ (Element.endTag g.name ++ t))) := by
    rw [htext]
    simp [Element.startTag]
  have hend : Element.endTag g.name ++ t = '<' :: (('/' :: g.name) ++ '>' :: t) := by simp [Element.endTag]
  rw [hstart] at hrun
  obtain ⟨htag, -, hsound, hadmits, hback⟩ := Lex.run_tag hrun hname
  obtain ⟨z, tag⟩ := σ
  obtain rfl : tag = none := htag
  obtain rfl : z = .anywhere := Zone.eq_anywhere_of_name hadmits
  rw [Zone.behind_name g hb] at hback
  obtain ⟨ρ, hitems, hclose⟩ := Lex.run_append_eq_some.1 hback
  rw [hend] at hclose
  obtain ⟨htag, -, -, hadmits, ht⟩ := Lex.run_tag hclose (by cases g <;> decide)
  obtain ⟨z, tag⟩ := ρ
  obtain rfl : tag = none := htag
  obtain rfl := Zone.eq_between_of_slash_name hadmits
  rw [Zone.behind_slash_name] at ht
  obtain rfl : u = ('<' :: ((g.name ++ b) ++ ['>'])) ++ (body ++ Element.endTag g.name) :=
    List.append_cancel_right (hstart.trans (by simp))
  have hshut : Shut (Element.endTag g.name) := shut_tag ('<' :: '/' :: g.name)
  refine ⟨⟨rfl, ht⟩, .behind (.behind hshut _) _, fun f => ?_⟩
  obtain ⟨⟨htidy, hlined⟩, hne⟩ := Lex.itemized_found (.inl rfl) hitems hfree (f := true)
  split
  · next hnil => exact absurd hnil (hne rfl)
  · refine ((hhtml _ htidy).bind fun h _ => (Keeps.shelve fun _ => id).mono (fun _ => id) (fun _ _ _ => id)
      (by rintro x ⟨n, rfl⟩; exact free_place n)).mono (fun n hn => hlined n ?_) (fun _ _ _ => id) fun _ => id
    have hD : 'D' ∉ Element.endTag g.name := by cases g <;> decide
    have hinside := hn.behind (.inl (shut_tag ('<' :: (g.name ++ b))).isAlphanum_getLast) (not_token_tag hsound)
    exact (hinside.before (.inr (by simp [Element.endTag])) (not_token_of_notMem hD)).mono fun _ => rfl

section
variable (hinner : CarriesInside inner)
include hinner

theorem tabs : Carries (Renderer.placeTabs inner) := by
  refine group .tabs fun items htidy => ?_
  refine (Keeps.withIds (Q := fun _ n => ∃ e ∈ items, Lined true n e.body) (R := fun _ => True) (fun _ _ => id)
    fun _ => trivial).bind fun id _ => ?_
  refine (Keeps.mapM (S := fun part n => token n <:+: part.2) (T := fun _ => True) fun e he => ?_).bind fun parts _ =>
    .pure (fun n => ?_) trivial
  · exact (hinner e.body (htidy e he)).bind fun y _ => .pure (fun _ hn => hn) trivial
  · rintro ⟨part, hmem, hn⟩
    exact Element.holds_tabs id hmem hn

theorem steps : Carries (shelveGroups "Steps" "Step" fun items => do
    return Element.steps (← items.mapM fun e => return (e.label, ← inner e.body))) := by
  refine group .steps fun items htidy => ?_
  refine (Keeps.mapM (S := fun part n => token n <:+: part.2) (T := fun _ => True) fun e he => ?_).bind fun parts _ =>
    .pure (fun n => ?_) trivial
  · exact (hinner e.body (htidy e he)).bind fun y _ => .pure (fun n => id) trivial
  · rintro ⟨part, hmem, hn⟩
    exact Element.holds_steps hmem hn

end

end Carries

end DocPages
