import DocPages.Proofs.Page.Leftover
import DocPages.Proofs.Shelf.Restore
import Mathlib.Data.List.Forall2

/-!
# What a text with tokens stands for

While a page is rendered its text holds tokens of blocks, and blocks hold tokens of older blocks. Such a text
stands for the one in which all of them are expanded, line breaks apart. Every step of rendering only adds blocks,
so what a text stands for at one time it stands for ever after; and in the end restoring the page gives just that.
-/

namespace DocPages

open DocPages.Shelf (Part RefsBelow fill expansions expand token)

/-- The text without its line breaks. -/
def squash (t : Text) : Text := t.filter (· != '\n')

@[simp] theorem squash_append (s t : Text) : squash (s ++ t) = squash s ++ squash t := by simp [squash]

/-- The text, with the expansions of blocks in `done` for the tokens in it, is `z` up to line breaks. -/
def Stands (done : List Text) (t z : Text) : Prop :=
  ∃ ps : List Part, Shelf.write ps = t ∧ (∀ p ∈ ps, p.Harmless) ∧ RefsBelow done.length ps ∧
    squash (fill done ps) = squash z

namespace Stands

variable {done done' : List Text} {s t y z : Text}

theorem nil (done : List Text) : Stands done [] [] :=
  ⟨[], rfl, by simp, fun _ _ h => absurd h List.not_mem_nil, rfl⟩

theorem append (hs : Stands done s y) (ht : Stands done t z) : Stands done (s ++ t) (y ++ z) := by
  obtain ⟨ps, rfl, hps, hps', hy⟩ := hs
  obtain ⟨qs, rfl, hqs, hqs', hz⟩ := ht
  refine ⟨ps ++ qs, Shelf.write_append ps qs, fun p hp => (List.mem_append.1 hp).elim (hps p) (hqs p),
    fun k b hk => (List.mem_append.1 hk).elim (hps' k b) (hqs' k b), ?_⟩
  rw [Shelf.fill_append, squash_append, squash_append, hy, hz]

/-- A stretch that holds no token stands for itself. -/
theorem plain (h : (Part.plain t).Harmless) (done : List Text) : Stands done t t :=
  ⟨[.plain t], by simp [Shelf.write, Part.write], by simpa using h, by simp [RefsBelow], by simp [fill]⟩

theorem gap (done : List Text) : Stands done ['\n'] [] := by
  refine ⟨[.plain ['\n']], by simp [Shelf.write, Part.write], ?_, by simp [RefsBelow], by simp [fill, squash]⟩
  simp only [List.mem_singleton, forall_eq]
  decide

theorem token {n : Nat} {e : Text} (he : done[n]? = some e) (hz : squash e = squash z) :
    Stands done (token n) z := by
  refine ⟨[.ref n false], by simp [Shelf.write, Part.write, Shelf.opening, Shelf.closing],
    by simp [Part.Harmless], ?_, by simp [fill, he, hz]⟩
  intro k b hk
  obtain ⟨rfl, -⟩ : k = n ∧ b = false := by simpa using hk
  exact (List.getElem?_eq_some_iff.1 he).1

theorem mono (h : Stands done t z) (hd : done <+: done') : Stands done' t z := by
  obtain ⟨ps, ht, hps, hrefs, hz⟩ := h
  obtain ⟨more, rfl⟩ := hd
  refine ⟨ps, ht, hps, fun k b hk => ?_, by rw [Shelf.fill_append_of_refsBelow hrefs, hz]⟩
  have hk := hrefs k b hk
  rw [List.length_append]
  omega

end Stands

/-- The blocks on the shelf have the given expansions, up to line breaks. -/
def Work.Expands (w : Work) (done : List Text) : Prop :=
  ∃ blocks : List (List Part), w.shelf.blocks = blocks.map Shelf.write ∧
    (∀ ps ∈ blocks, ∀ p ∈ ps, p.Harmless) ∧ (∀ i ps, blocks[i]? = some ps → RefsBelow i ps) ∧
    expansions blocks = done

theorem Work.expands_fresh : Work.fresh.Expands [] := ⟨[], rfl, by simp, by simp, rfl⟩

/-- Putting the blocks back gives what a text stands for. -/
theorem Work.Expands.restore {w : Work} {done : List Text} {t z : Text} (hw : w.Expands done)
    (ht : Stands done t z) : squash (w.shelf.restore t) = squash z := by
  obtain ⟨blocks, hblocks, hsafe, holder, rfl⟩ := hw
  obtain ⟨ps, rfl, hps, -, hz⟩ := ht
  obtain ⟨ps', hrestore, hexpand, -, -⟩ := Shelf.restore_write hsafe hps holder
  have hshelf : w.shelf = ⟨blocks.map Shelf.write⟩ := by rw [← hblocks]
  rw [hshelf, hrestore, hexpand]
  exact hz

/-- From any work in which blocks have the given expansions, the step only adds to them and gives a result with
the property. -/
def Leads {α : Type} (done : List Text) (step : StateM Work α) (Q : List Text → α → Prop) : Prop :=
  ∀ w : Work, w.Expands done → ∃ done', done <+: done' ∧ (step.run w).2.Expands done' ∧ Q done' (step.run w).1

namespace Leads

variable {α β : Type} {done : List Text} {Q : List Text → α → Prop} {R : List Text → β → Prop}

theorem pure {a : α} (h : Q done a) : Leads done (Pure.pure a) Q := fun _ hw =>
  ⟨done, List.prefix_rfl, hw, h⟩

theorem bind {step : StateM Work α} {next : α → StateM Work β} (h : Leads done step Q)
    (hnext : ∀ done' a, done <+: done' → Q done' a → Leads done' (next a) R) :
    Leads done (step >>= next) R := by
  intro w hw
  obtain ⟨done₁, hle, hw, ha⟩ := h w hw
  obtain ⟨done₂, hle', hw, hb⟩ := hnext done₁ _ hle ha _ hw
  exact ⟨done₂, hle.trans hle', hw, hb⟩

theorem map {f : α → β} {step : StateM Work α} (h : Leads done step Q)
    (hf : ∀ done' a, done <+: done' → Q done' a → R done' (f a)) : Leads done (f <$> step) R := fun w hw => by
  obtain ⟨done', hle, hw, ha⟩ := h w hw
  exact ⟨done', hle, hw, hf done' _ hle ha⟩

theorem imp {P : List Text → α → Prop} {step : StateM Work α} (h : Leads done step Q)
    (hP : ∀ done' a, done <+: done' → Q done' a → P done' a) : Leads done step P := fun w hw => by
  obtain ⟨done', hle, hw, ha⟩ := h w hw
  exact ⟨done', hle, hw, hP done' _ hle ha⟩

theorem mapM {step : α → StateM Work β} {as : List α} {P : List Text → α → β → Prop}
    (hmono : ∀ {done₁ done₂ a b}, done₁ <+: done₂ → P done₁ a b → P done₂ a b)
    (h : ∀ a ∈ as, ∀ done', done <+: done' → Leads done' (step a) fun done' b => P done' a b) :
    Leads done (as.mapM step) fun done' bs => List.Forall₂ (P done') as bs := by
  induction as generalizing done with
  | nil => exact .pure .nil
  | cons a as ih =>
    rw [List.mapM_cons]
    refine (h a (by simp) done List.prefix_rfl).bind fun done₁ b hle hb => ?_
    refine (ih fun c hc done' hle' => h c (List.mem_cons_of_mem a hc) done' (hle.trans hle')).bind ?_
    exact fun done₂ bs hle' hbs => .pure (.cons (hmono hle' hb) hbs)

/-- A block is put on the shelf, and its place holds a token for what the block stands for. -/
theorem shelve {block z : Text} (h : Stands done block z) :
    Leads done (Work.shelve block) fun done' t =>
      ∃ n e, t = Shelf.place n ∧ done'[n]? = some e ∧ squash e = squash z := by
  obtain ⟨ps, rfl, hps, hrefs, hz⟩ := h
  rintro w ⟨blocks, hblocks, hsafe, holder, rfl⟩
  have hlength : w.shelf.size = blocks.length := by simp [Shelf.size, hblocks]
  refine ⟨expansions blocks ++ [expand blocks ps], List.prefix_append _ _, ⟨blocks ++ [ps], ?_, ?_, ?_,
    Shelf.expansions_append blocks ps⟩, blocks.length, expand blocks ps, ?_, by simp, hz⟩
  · change w.shelf.blocks ++ [Shelf.write ps] = _
    simp [hblocks]
  · intro qs hqs
    rcases List.mem_append.1 hqs with hqs | hqs
    · exact hsafe qs hqs
    · exact List.mem_singleton.1 hqs ▸ hps
  · intro i qs hi
    rcases Nat.lt_or_ge i blocks.length with hlt | hge
    · exact holder i qs (by rwa [List.getElem?_append_left hlt] at hi)
    · have hlt : i < blocks.length + 1 := by simpa using (List.getElem?_eq_some_iff.1 hi).1
      obtain rfl : i = blocks.length := by omega
      obtain rfl : ps = qs := by simpa using hi
      simpa using hrefs
  · exact congrArg Shelf.place hlength

end Leads

end DocPages
