import DocPages.Proofs.Page.Growth
import DocPages.Proofs.Page.Leftover

/-!
# Blocks that are within reach

A block is within reach if its token stands in the text, or in a block that is within reach itself. Tokens of blocks
stand at the beginning of a line as long as a text is worked on. A step keeps blocks within reach if it hands on what
stood in its text, and whatever it puts on the shelf.
-/

namespace DocPages

open DocPages.Shelf (token place)

/-! ## Tokens on lines -/

/-- Whether a line begins behind the text, if `fresh` tells so for the place in front of it. -/
def freshBehind (fresh : Bool) (t : Text) : Bool := (t.getLast?.map (· == '\n')).getD fresh

/-- The token stands at the beginning of a line of the text. -/
def Lined (fresh : Bool) (n : Nat) (t : Text) : Prop :=
  ∃ a b, t = a ++ (token n ++ b) ∧ freshBehind fresh a = true

theorem freshBehind_cons (fresh : Bool) (c : Char) (t : Text) :
    freshBehind fresh (c :: t) = freshBehind (c == '\n') t := by
  cases t with
  | nil => rfl
  | cons d t => rfl

theorem freshBehind_append (fresh : Bool) (s t : Text) : freshBehind fresh (s ++ t) = freshBehind (freshBehind fresh s) t := by
  induction s generalizing fresh with
  | nil => rfl
  | cons c s ih => rw [List.cons_append, freshBehind_cons, ih, ← freshBehind_cons fresh]

/-- A text is cut where no word goes on: a token stands in front of the cut or behind it. -/
theorem token_cut {n : Nat} {s t a b : Text} (h : s ++ t = a ++ (token n ++ b))
    (hcut : (∀ c ∈ s.getLast?, c.isAlphanum = false) ∨ ∀ c ∈ t.head?, c.isAlphanum = false) :
    (∃ k, s = a ++ (token n ++ k)) ∨ ∃ m, a = s ++ m ∧ t = m ++ (token n ++ b) := by
  rcases List.append_eq_append_iff.1 h with ⟨m, rfl, hm⟩ | ⟨m, rfl, hm⟩
  · exact .inr ⟨m, rfl, hm⟩
  · rcases List.append_eq_append_iff.1 hm with ⟨k, rfl, -⟩ | ⟨k, htoken, rfl⟩
    · exact .inl ⟨k, rfl⟩
    · -- Here the cut would be inside the token.
      have halnum : ∀ c ∈ m ++ k, c.isAlphanum = true := fun c hc => Shelf.isAlphanum_of_mem_token (htoken ▸ hc)
      cases m with
      | nil => exact .inr ⟨[], by simp, by rw [htoken]; rfl⟩
      | cons d m =>
        cases k with
        | nil => exact .inl ⟨[], by rw [htoken]; simp⟩
        | cons e k =>
          exfalso
          rcases hcut with hcut | hcut
          · have hlast := List.getLast?_eq_some_getLast (List.cons_ne_nil d m)
            have hmem : (d :: m).getLast (List.cons_ne_nil d m) ∈ d :: m ++ e :: k :=
              List.mem_append_left _ (List.getLast_mem _)
            have hbad := hcut _ (by rw [List.getLast?_append, hlast]; rfl)
            rw [halnum _ hmem] at hbad
            cases hbad
          · have hbad := hcut e rfl
            rw [halnum e (by simp)] at hbad
            cases hbad

theorem token_infix_cut {n : Nat} {s t : Text} (h : token n <:+: s ++ t)
    (hcut : (∀ c ∈ s.getLast?, c.isAlphanum = false) ∨ ∀ c ∈ t.head?, c.isAlphanum = false) :
    token n <:+: s ∨ token n <:+: t := by
  obtain ⟨a, b, hab⟩ := h
  rcases token_cut (by rw [← hab, List.append_assoc]) hcut with ⟨k, rfl⟩ | ⟨m, -, rfl⟩
  · exact .inl ⟨a, k, by simp⟩
  · exact .inr ⟨m, b, by simp⟩

namespace Lined

variable {f g : Bool} {n : Nat} {s t : Text} {c : Char}

theorem isInfix (h : Lined f n t) : token n <:+: t := by
  obtain ⟨a, b, rfl, -⟩ := h
  exact ⟨a, b, by simp⟩

theorem mono (h : Lined f n t) (hfg : f = true → g = true) : Lined g n t := by
  obtain ⟨a, b, ht, ha⟩ := h
  refine ⟨a, b, ht, ?_⟩
  cases a with
  | nil => exact hfg ha
  | cons c a => exact ha

theorem front (n : Nat) (b : Text) : Lined true n (token n ++ b) := ⟨[], b, rfl, rfl⟩

theorem append_left (h : Lined f n s) (t : Text) : Lined f n (s ++ t) := by
  obtain ⟨a, b, rfl, ha⟩ := h
  exact ⟨a, b ++ t, by simp, ha⟩

theorem append_right (h : Lined (freshBehind f s) n t) : Lined f n (s ++ t) := by
  obtain ⟨a, b, rfl, ha⟩ := h
  exact ⟨s ++ a, b, by simp, by rwa [freshBehind_append]⟩

theorem cons (h : Lined (c == '\n') n t) : Lined f n (c :: t) := append_right (s := [c]) h

theorem cons_inv (h : Lined f n (c :: t)) : f = true ∧ token n <+: c :: t ∨ Lined (c == '\n') n t := by
  obtain ⟨a, b, ht, ha⟩ := h
  cases a with
  | nil => exact .inl ⟨ha, b, ht.symm⟩
  | cons d a =>
    obtain ⟨rfl, rfl⟩ := List.cons.inj ht
    exact .inr ⟨a, b, rfl, by rwa [freshBehind_cons] at ha⟩

theorem cut (h : Lined f n (s ++ t))
    (hcut : (∀ c ∈ s.getLast?, c.isAlphanum = false) ∨ ∀ c ∈ t.head?, c.isAlphanum = false) :
    Lined f n s ∨ Lined (freshBehind f s) n t := by
  obtain ⟨a, b, hab, ha⟩ := h
  rcases token_cut hab hcut with ⟨k, rfl⟩ | ⟨m, rfl, rfl⟩
  · exact .inl ⟨a, k, rfl, ha⟩
  · exact .inr ⟨m, b, rfl, by rwa [freshBehind_append] at ha⟩

/-- What holds no token, with something else than a word at the cut. -/
theorem behind (h : Lined f n (s ++ t))
    (hcut : (∀ c ∈ s.getLast?, c.isAlphanum = false) ∨ ∀ c ∈ t.head?, c.isAlphanum = false)
    (hs : ¬ token n <:+: s) : Lined (freshBehind f s) n t :=
  (h.cut hcut).resolve_left fun h => hs h.isInfix

theorem before (h : Lined f n (s ++ t))
    (hcut : (∀ c ∈ s.getLast?, c.isAlphanum = false) ∨ ∀ c ∈ t.head?, c.isAlphanum = false)
    (ht : ¬ token n <:+: t) : Lined f n s :=
  (h.cut hcut).resolve_right fun h => ht h.isInfix

theorem place (f : Bool) (n : Nat) : Lined f n (place n) :=
  ⟨"\n\n", "\n\n", List.append_assoc _ _ _, rfl⟩

end Lined

/-! ## Within reach -/

/-- The blocks that are within reach, if those in `P` are. -/
inductive Reached (P : Nat → Prop) (blocks : List Text) : Nat → Prop where
  | base {n : Nat} (h : P n) : Reached P blocks n
  | block {m n : Nat} {b : Text} (hm : Reached P blocks m) (hb : blocks[m]? = some b) (h : token n <:+: b) :
      Reached P blocks n

namespace Reached

variable {P Q : Nat → Prop} {blocks more : List Text} {n : Nat}

/-- What is within reach stays so when blocks are added and each base is within reach of others. -/
theorem trans (h : Reached P blocks n) (hmore : blocks <+: more) (hP : ∀ m, P m → Reached Q more m) : Reached Q more n := by
  induction h with
  | base h => exact hP _ h
  | block _ hb h ih =>
    obtain ⟨later, rfl⟩ := hmore
    exact ih.block (List.getElem?_append_left (List.getElem?_eq_some_iff.1 hb).1 ▸ hb) h

theorem mono (h : Reached P blocks n) (hPQ : ∀ m, P m → Q m) : Reached Q blocks n :=
  h.trans List.prefix_rfl fun m hm => .base (hPQ m hm)

/-- A block whose token stands nowhere is out of reach. -/
theorem not_of_no_token (hP : ¬ P n) (hblocks : ∀ b ∈ blocks, ¬ token n <:+: b) : ¬ Reached P blocks n := by
  intro h
  cases h with
  | base h => exact hP h
  | block _ hb h => exact hblocks _ (List.mem_of_getElem? hb) h

end Reached

/-- After a step that gives `a`, the blocks in `P` are within reach of those in `Q a`, and so are the new ones. -/
structure Kept {α : Type} (P : Nat → Prop) (Q : α → Nat → Prop) (w : Work) (a : α) (w' : Work) : Prop where
  grows : w.shelf.blocks <+: w'.shelf.blocks
  old : ∀ n, P n → Reached (Q a) w'.shelf.blocks n
  new : ∀ n, w.shelf.size ≤ n → n < w'.shelf.size → Reached (Q a) w'.shelf.blocks n

theorem Kept.trans {α β : Type} {P : Nat → Prop} {Q : α → Nat → Prop} {S : β → Nat → Prop} {w v w' : Work} {a : α} {b : β}
    (h : Kept P Q w a v) (h' : Kept (Q a) S v b w') : Kept P S w b w' := by
  have hon {n : Nat} (hn : Reached (Q a) v.shelf.blocks n) := hn.trans h'.grows h'.old
  refine ⟨h.grows.trans h'.grows, fun n hP => hon (h.old n hP), fun n hge hlt => ?_⟩
  rcases Nat.lt_or_ge n v.shelf.size with hv | hv
  · exact hon (h.new n hge hv)
  · exact h'.new n hv hlt

/-- The step keeps blocks within reach, and `R` holds of its result. -/
def Keeps {α : Type} (P : Nat → Prop) (Q : α → Nat → Prop) (R : α → Prop) (step : StateM Work α) : Prop :=
  ∀ w, Kept P Q w (step.run w).1 (step.run w).2 ∧ R (step.run w).1

namespace Keeps

variable {α β : Type} {P P' : Nat → Prop} {Q Q' : α → Nat → Prop} {R R' : α → Prop} {S : β → Nat → Prop} {T : β → Prop}

theorem pure {a : α} (hQ : ∀ n, P n → Q a n) (hR : R a) : Keeps P Q R (Pure.pure a) := fun _ =>
  ⟨⟨List.prefix_rfl, fun n hn => .base (hQ n hn), fun _ h h' => absurd h' (Nat.not_lt.2 h)⟩, hR⟩

theorem bind {step : StateM Work α} {next : α → StateM Work β} (h : Keeps P Q R step)
    (hn : ∀ a, R a → Keeps (Q a) S T (next a)) : Keeps P S T (step >>= next) := by
  intro w
  obtain ⟨hfirst, hr⟩ := h w
  obtain ⟨hsecond, ht⟩ := hn _ hr (step.run w).2
  exact ⟨hfirst.trans hsecond, ht⟩

theorem mono {step : StateM Work α} (h : Keeps P Q R step) (hP : ∀ n, P' n → P n) (hQ : ∀ a, R a → ∀ n, Q a n → Q' a n)
    (hR : ∀ a, R a → R' a) : Keeps P' Q' R' step := fun w =>
  ⟨⟨(h w).1.grows, fun n hn => ((h w).1.old n (hP n hn)).mono (hQ _ (h w).2),
    fun n hge hlt => ((h w).1.new n hge hlt).mono (hQ _ (h w).2)⟩, hR _ (h w).2⟩

/-- What the step has nothing to do with stays within reach. -/
theorem frame {step : StateM Work α} (h : Keeps P Q R step) (F : Nat → Prop) :
    Keeps (fun n => P n ∨ F n) (fun a n => Q a n ∨ F n) R step := by
  intro w
  obtain ⟨⟨hgrows, hold, hnew⟩, hr⟩ := h w
  refine ⟨⟨hgrows, fun n hn => ?_, fun n hge hlt => (hnew n hge hlt).mono fun _ => .inl⟩, hr⟩
  rcases hn with hn | hn
  · exact (hold n hn).mono fun _ => .inl
  · exact .base (.inr hn)

theorem withIds {step : StateM IdSupply α} (hQ : ∀ s n, P n → Q (step.run s).1 n) (hR : ∀ s, R (step.run s).1) :
    Keeps P Q R (Work.withIds step) := fun w =>
  ⟨⟨List.prefix_rfl, fun n hn => .base (hQ w.ids n hn), fun _ h h' => absurd h' (Nat.not_lt.2 h)⟩, hR w.ids⟩

theorem report (issue : Issue) : Keeps P (fun _ => P) (fun _ => True) (Work.report issue) := fun _ =>
  ⟨⟨List.prefix_rfl, fun _ hn => .base hn, fun _ h h' => absurd h' (Nat.not_lt.2 h)⟩, trivial⟩

/-- A block goes to a place, and with it all whose tokens it holds. -/
theorem shelve {block : Text} (hP : ∀ n, P n → token n <:+: block) :
    Keeps P (fun x n => Lined false n x) (fun x => ∃ n, x = place n) (Work.shelve block) := by
  intro w
  have hrun : (Work.shelve block).run w = (place w.shelf.size, { w with shelf := ⟨w.shelf.blocks ++ [block]⟩ }) := rfl
  rw [hrun]
  have hplace : Reached (fun n => Lined false n (place w.shelf.size)) (w.shelf.blocks ++ [block]) w.shelf.size :=
    .base (.place false _)
  refine ⟨⟨List.prefix_append _ _, fun n hn => hplace.block (by simp [Shelf.size]) (hP n hn), fun n hge hlt => ?_⟩, _, rfl⟩
  have hlen : n < w.shelf.size + 1 := by simpa [Shelf.size] using hlt
  obtain rfl : n = w.shelf.size := by omega
  exact hplace

/-- A step that does nothing loses nothing either. -/
theorem of_pure {a : α} (h : Keeps P Q R (Pure.pure a)) : (∀ n, P n → Q a n) ∧ R a := by
  obtain ⟨hkept, hr⟩ := h Work.fresh
  refine ⟨fun n hn => ?_, hr⟩
  cases hkept.old n hn with
  | base h => exact h
  | block _ hb _ => cases hb

theorem mapM {as : List α} {f : α → StateM Work β} {P : α → Nat → Prop} (h : ∀ a ∈ as, Keeps (P a) S T (f a)) :
    Keeps (fun n => ∃ a ∈ as, P a n) (fun bs n => ∃ b ∈ bs, S b n) (fun bs => bs.length = as.length) (as.mapM f) := by
  induction as with
  | nil => exact pure (by simp) rfl
  | cons a as ih =>
    rw [List.mapM_cons]
    have hfirst := (h a List.mem_cons_self).frame fun n => ∃ a ∈ as, P a n
    refine (hfirst.mono (by simp) (fun _ _ _ => id) fun _ => id).bind fun b _ => ?_
    have hrest := (ih fun a ha => h a (List.mem_cons_of_mem _ ha)).frame (S b)
    refine (hrest.mono (fun n => Or.symm) (fun _ _ _ => id) fun _ => id).bind fun bs hbs => pure (fun n => ?_) (by simp [hbs])
    rintro (⟨b', hb', hn⟩ | hn)
    · exact ⟨b', List.mem_cons_of_mem _ hb', hn⟩
    · exact ⟨b, List.mem_cons_self, hn⟩

end Keeps

end DocPages
