import DocPages.Proofs.Text.Takes
import DocPages.Proofs.Text.Trim

/-!
# Line breaks of another style

Two texts that differ only in that a line feed of the one is two characters in the other. Whatever looks for parts
without line breaks, or asks for classes of characters to which both characters of a break belong or neither, finds
the same in both.
-/

namespace DocPages

/-- What may stand for a line feed; from back to front the two characters stand the other way round. -/
def breakStyles : List Text := [['\r', '\n'], ['\n', '\r'], ['\r']]

/-- The second text has another break for some of the line feeds of the first. -/
inductive Breaks : Text → Text → Prop where
  | nil : Breaks [] []
  | cons (c : Char) {s t : Text} (h : Breaks s t) : Breaks (c :: s) (c :: t)
  | turn {w : Text} (hw : w ∈ breakStyles) {s t : Text} (h : Breaks s t) : Breaks ('\n' :: s) (w ++ t)

/-- A text without a line break. -/
abbrev Unbroken (p : Text) : Prop := '\n' ∉ p ∧ '\r' ∉ p

/-- A class of characters does not tell the characters of a break apart. -/
abbrev BreakBlind (p : Char → Bool) : Prop := p '\r' = p '\n'

namespace Breaks

variable {s t s' t' : Text} {p : Char → Bool}

theorem refl (t : Text) : Breaks t t := by
  induction t with
  | nil => exact .nil
  | cons c t ih => exact .cons c ih

theorem append (h : Breaks s t) (h' : Breaks s' t') : Breaks (s ++ s') (t ++ t') := by
  induction h with
  | nil => exact h'
  | cons c _ ih => exact .cons c ih
  | turn hw _ ih =>
    rw [List.append_assoc]
    exact .turn hw ih

theorem reverse (h : Breaks s t) : Breaks s.reverse t.reverse := by
  induction h with
  | nil => exact .nil
  | cons c _ ih =>
    rw [List.reverse_cons, List.reverse_cons]
    exact ih.append (refl [c])
  | @turn w hw s t _ ih =>
    have hreverse : ∀ w ∈ breakStyles, w.reverse ∈ breakStyles := by decide
    have hturn : Breaks ['\n'] (w.reverse ++ []) := .turn (hreverse w hw) .nil
    rw [List.append_nil] at hturn
    rw [List.reverse_cons, List.reverse_append]
    exact ih.append hturn

/-- A break consists of the two characters, or of one of them. -/
theorem style_cases {w : Text} (hw : w ∈ breakStyles) : w = ['\r', '\n'] ∨ w = ['\n', '\r'] ∨ w = ['\r'] := by
  simpa [breakStyles] using hw

theorem length_le (h : Breaks s t) : s.length ≤ t.length := by
  induction h with
  | nil => exact Nat.le_refl _
  | cons c _ ih => exact Nat.succ_le_succ ih
  | turn hw _ ih => rcases style_cases hw with rfl | rfl | rfl <;> simp <;> omega

theorem cons_inv {c : Char} (h : Breaks (c :: s) t) (hc : c ≠ '\n') : ∃ t', t = c :: t' ∧ Breaks s t' := by
  cases h with
  | cons _ h => exact ⟨_, rfl, h⟩
  | turn hw h => exact absurd rfl hc

/-- What is in front of both texts is the same character, or a break of each. -/
theorem cases_head (h : Breaks s t) : (s = [] ∧ t = []) ∨
    ∃ c d s' t', s = c :: s' ∧ t = d :: t' ∧ (c = d ∨ c = '\n' ∧ (d = '\n' ∨ d = '\r')) := by
  cases h with
  | nil => exact .inl ⟨rfl, rfl⟩
  | cons c _ => exact .inr ⟨c, c, _, _, rfl, rfl, .inl rfl⟩
  | turn hw _ =>
    rcases style_cases hw with rfl | rfl | rfl
    · exact .inr ⟨'\n', '\r', _, _, rfl, rfl, .inr ⟨rfl, .inr rfl⟩⟩
    · exact .inr ⟨'\n', '\n', _, _, rfl, rfl, .inl rfl⟩
    · exact .inr ⟨'\n', '\r', _, _, rfl, rfl, .inr ⟨rfl, .inr rfl⟩⟩

/-- A character that is no break stands in front of both texts or of neither. -/
theorem head_cases {c : Char} (h : Breaks s t) (hn : c ≠ '\n') (hr : c ≠ '\r') :
    (∃ s' t', s = c :: s' ∧ t = c :: t' ∧ Breaks s' t') ∨ ((∀ u, s ≠ c :: u) ∧ ∀ u, t ≠ c :: u) := by
  cases h with
  | nil => exact .inr ⟨fun _ h => (by cases h), fun _ h => (by cases h)⟩
  | @cons d s t h =>
    by_cases hd : d = c
    · exact .inl ⟨s, t, by rw [hd], by rw [hd], h⟩
    · exact .inr ⟨fun _ h => hd (List.cons.inj h).1, fun _ h => hd (List.cons.inj h).1⟩
  | turn hw h =>
    refine .inr ⟨fun _ h => hn (List.cons.inj h).1.symm, fun _ h => ?_⟩
    rcases style_cases hw with rfl | rfl | rfl
    · exact hr (List.cons.inj h).1.symm
    · exact hn (List.cons.inj h).1.symm
    · exact hr (List.cons.inj h).1.symm

/-- The same at the end. -/
theorem last_cases {c : Char} (h : Breaks s t) (hn : c ≠ '\n') (hr : c ≠ '\r') :
    (∃ s' t', s = s' ++ [c] ∧ t = t' ++ [c] ∧ Breaks s' t') ∨ (s.getLast? ≠ some c ∧ t.getLast? ≠ some c) := by
  have hlast {u : Text} (hu : ∀ v, u.reverse ≠ c :: v) : u.getLast? ≠ some c := fun hc => by
    obtain ⟨v, hv⟩ := List.head?_eq_some_iff.1 (List.head?_reverse.trans hc)
    exact hu v hv
  rcases h.reverse.head_cases hn hr with ⟨s', t', hs, ht, h⟩ | ⟨hs, ht⟩
  · exact .inl ⟨s'.reverse, t'.reverse, by simpa using congrArg List.reverse hs, by simpa using congrArg List.reverse ht,
      h.reverse⟩
  · exact .inr ⟨hlast hs, hlast ht⟩

theorem isEmpty (h : Breaks s t) : s.isEmpty = t.isEmpty := by
  rcases h.cases_head with ⟨rfl, rfl⟩ | ⟨c, d, s', t', rfl, rfl, -⟩ <;> rfl

theorem any_head (h : Breaks s t) (hp : BreakBlind p) : s.head?.any p = t.head?.any p := by
  rcases h.cases_head with ⟨rfl, rfl⟩ | ⟨c, d, s', t', rfl, rfl, rfl | ⟨rfl, rfl | rfl⟩⟩
  · rfl
  · rfl
  · rfl
  · exact hp.symm

theorem any (h : Breaks s t) (hp : BreakBlind p) : s.any p = t.any p := by
  induction h with
  | nil => rfl
  | cons c _ ih => simp only [List.any_cons, ih]
  | turn hw _ ih =>
    have hp : p '\r' = p '\n' := hp
    rcases style_cases hw with rfl | rfl | rfl <;> simp [ih, hp]

theorem all (h : Breaks s t) (hp : BreakBlind p) : s.all p = t.all p := by
  induction h with
  | nil => rfl
  | cons c _ ih => simp only [List.all_cons, ih]
  | turn hw _ ih =>
    have hp : p '\r' = p '\n' := hp
    rcases style_cases hw with rfl | rfl | rfl <;> simp [ih, hp]

theorem contains (h : Breaks s t) {c : Char} (hc : Unbroken [c]) : s.contains c = t.contains c := by
  obtain ⟨hn, hr⟩ : '\n' ≠ c ∧ '\r' ≠ c := by simpa [Unbroken] using hc
  have hblind : BreakBlind fun d => c == d := by simp [BreakBlind, Ne.symm hn, Ne.symm hr]
  simpa [List.any_beq] using h.any hblind

theorem dropWhile (h : Breaks s t) (hp : BreakBlind p) : Breaks (s.dropWhile p) (t.dropWhile p) := by
  induction h with
  | nil => exact .nil
  | @cons c s t h ih =>
    cases hc : p c with
    | true => simpa [List.dropWhile, hc] using ih
    | false => simpa [List.dropWhile, hc] using Breaks.cons c h
  | @turn w hw s t h ih =>
    have hp : p '\r' = p '\n' := hp
    cases hc : p '\n' with
    | true =>
      have hw' : ∀ c ∈ w, p c = true := by rcases style_cases hw with rfl | rfl | rfl <;> simp [hp, hc]
      rw [List.dropWhile_append_of_pos hw']
      simpa [List.dropWhile, hc] using ih
    | false =>
      have hkept : (w ++ t).dropWhile p = w ++ t := by rcases style_cases hw with rfl | rfl | rfl <;> simp [hp, hc]
      rw [hkept]
      simpa [List.dropWhile, hc] using Breaks.turn hw h

theorem takeWhile (h : Breaks s t) (hp : BreakBlind p) : Breaks (s.takeWhile p) (t.takeWhile p) := by
  induction h with
  | nil => exact .nil
  | @cons c s t h ih =>
    cases hc : p c with
    | true => simpa [List.takeWhile, hc] using Breaks.cons c ih
    | false => simpa [List.takeWhile, hc] using Breaks.nil
  | @turn w hw s t h ih =>
    have hp : p '\r' = p '\n' := hp
    cases hc : p '\n' with
    | true =>
      have hw' : ∀ c ∈ w, p c = true := by rcases style_cases hw with rfl | rfl | rfl <;> simp [hp, hc]
      rw [List.takeWhile_append_of_pos hw']
      simpa [List.takeWhile, hc] using Breaks.turn hw ih
    | false =>
      have hnone : (w ++ t).takeWhile p = [] := by rcases style_cases hw with rfl | rfl | rfl <;> simp [hp, hc]
      rw [hnone]
      simpa [List.takeWhile, hc] using Breaks.nil

theorem filter_eq (h : Breaks s t) (hp : BreakBlind p) (hn : p '\n' = false) : s.filter p = t.filter p := by
  induction h with
  | nil => rfl
  | cons c _ ih => simp only [List.filter_cons, ih]
  | turn hw _ ih =>
    have hp : p '\r' = p '\n' := hp
    rcases style_cases hw with rfl | rfl | rfl <;> simp [hp, hn, ih]

theorem flatMap (h : Breaks s t) {f : Char → Text} (hn : f '\n' = ['\n']) (hr : f '\r' = ['\r']) :
    Breaks (s.flatMap f) (t.flatMap f) := by
  induction h with
  | nil => exact .nil
  | cons c _ ih => exact (refl (f c)).append ih
  | turn hw _ ih =>
    have hw' : ∀ w ∈ breakStyles, w.flatMap f = w := by simp [breakStyles, hn, hr]
    rw [List.flatMap_cons, hn, List.flatMap_append, hw' _ hw]
    exact .turn hw ih

/-- A text without breaks is the same in both styles. -/
theorem eq_iff (h : Breaks s t) {k : Text} (hk : Unbroken k) : s = k ↔ t = k := by
  induction h generalizing k with
  | nil => rfl
  | cons c _ ih =>
    cases k with
    | nil => simp
    | cons d k =>
      have hk : Unbroken k := ⟨fun h => hk.1 (List.mem_cons_of_mem d h), fun h => hk.2 (List.mem_cons_of_mem d h)⟩
      rw [List.cons.injEq, List.cons.injEq, ih hk]
  | @turn w hw s t h ih =>
    constructor
    · rintro rfl
      exact absurd List.mem_cons_self hk.1
    · rintro rfl
      have hbreak : ∀ w ∈ breakStyles, '\n' ∈ w ∨ '\r' ∈ w := by decide
      rcases hbreak w hw with hmem | hmem
      · exact absurd (List.mem_append_left t hmem) hk.1
      · exact absurd (List.mem_append_left t hmem) hk.2

theorem of_unbroken (h : Breaks s t) (hs : Unbroken s) : s = t := ((h.eq_iff hs).1 rfl).symm

/-- Stretches of a class without breaks are the same. -/
theorem takeWhile_eq (h : Breaks s t) (hn : p '\n' = false) (hr : p '\r' = false) : s.takeWhile p = t.takeWhile p := by
  refine (h.takeWhile (hr.trans hn.symm)).of_unbroken ⟨fun hmem => ?_, fun hmem => ?_⟩
  · rw [List.mem_takeWhile_imp hmem] at hn
    cases hn
  · rw [List.mem_takeWhile_imp hmem] at hr
    cases hr

end Breaks

/-! ## Readers -/

/-- Both results are there or neither is, and what is read is related. -/
theorem rel_bind {α β γ δ : Type} {R : α → β → Prop} {S : γ → δ → Prop} {x : Option α} {y : Option β}
    {f : α → Option γ} {g : β → Option δ} (h : Option.Rel R x y) (hf : ∀ a b, R a b → Option.Rel S (f a) (g b)) :
    Option.Rel S (x.bind f) (y.bind g) := by
  cases h with
  | none => exact .none
  | some hab => exact hf _ _ hab

theorem rel_map {α β γ δ : Type} {R : α → β → Prop} {S : γ → δ → Prop} {x : Option α} {y : Option β} {f : α → γ}
    {g : β → δ} (h : Option.Rel R x y) (hf : ∀ a b, R a b → S (f a) (g b)) : Option.Rel S (x.map f) (y.map g) := by
  cases h with
  | none => exact .none
  | some hab => exact .some (hf _ _ hab)

theorem rel_or {α β : Type} {R : α → β → Prop} {x x' : Option α} {y y' : Option β} (h : Option.Rel R x y)
    (h' : Option.Rel R x' y') : Option.Rel R (x.or x') (y.or y') := by
  cases h with
  | none => exact h'
  | some hab => exact .some hab

theorem rel_none_iff {α β : Type} {R : α → β → Prop} {x : Option α} {y : Option β} (h : Option.Rel R x y) :
    x = none ↔ y = none := by
  cases h <;> simp

theorem rel_some {α β : Type} {R : α → β → Prop} {a : α} {y : Option β} (h : Option.Rel R (some a) y) :
    ∃ b, y = some b ∧ R a b := by
  cases h with
  | some hab => exact ⟨_, rfl, hab⟩

/-- Readings of two texts: neither succeeds, or what is read is related and so is what is left. -/
abbrev Readings {α β : Type} (R : α → β → Prop) : Option (α × Text) → Option (β × Text) → Prop :=
  Option.Rel fun p q => R p.1 q.1 ∧ Breaks p.2 q.2

/-- The reader finds related things in texts that differ in their breaks. -/
def ReadsThrough {α : Type} (R : α → α → Prop) (read : Reader Char α) : Prop :=
  ∀ s t, Breaks s t → Readings R (read s) (read t)

namespace Breaks

variable {s t : Text}

theorem after? (h : Breaks s t) {lead : Text} (hlead : Unbroken lead) :
    Option.Rel Breaks (Text.after? lead s) (Text.after? lead t) := by
  induction lead generalizing s t with
  | nil =>
    rw [Text.after?_nil, Text.after?_nil]
    exact .some h
  | cons a lead ih =>
    have hrest : Unbroken lead :=
      ⟨fun h => hlead.1 (List.mem_cons_of_mem a h), fun h => hlead.2 (List.mem_cons_of_mem a h)⟩
    have ha : a ≠ '\n' ∧ a ≠ '\r' := ⟨fun he => hlead.1 (by simp [he]), fun he => hlead.2 (by simp [he])⟩
    cases h with
    | nil => exact .none
    | cons c h =>
      simp only [Text.after?]
      split
      · exact ih h hrest
      · exact .none
    | turn hw h =>
      rcases style_cases hw with rfl | rfl | rfl <;> simp [Text.after?, ha]

/-- No part without breaks begins with a break. -/
theorem after?_break {c : Char} (hc : c = '\n' ∨ c = '\r') {lead : Text} (hne : lead ≠ []) (hlead : Unbroken lead)
    (t : Text) : Text.after? lead (c :: t) = none := by
  obtain ⟨a, lead, rfl⟩ := List.exists_cons_of_ne_nil hne
  refine if_neg fun he => ?_
  rcases hc with rfl | rfl
  · exact hlead.1 (by simp [he])
  · exact hlead.2 (by simp [he])

theorem cut? (h : Breaks s t) {sep : Text} (hne : sep ≠ []) (hsep : Unbroken sep) :
    Readings Breaks (Text.cut? sep s) (Text.cut? sep t) := by
  have hkept (c : Char) (u : Text) (hu : Text.after? sep (c :: u) = none) :
      Text.cut? sep (c :: u) = (Text.cut? sep u).map fun p => (c :: p.1, p.2) := by
    rw [Text.cut?, hu]
  induction h with
  | nil =>
    have hnil : sep.isEmpty = false := by simpa using hne
    simp [Text.cut?, hnil]
  | @cons c s t h ih =>
    have hafter := (Breaks.cons c h).after? hsep
    cases hs : Text.after? sep (c :: s) with
    | some u =>
      rw [hs] at hafter
      cases ht : Text.after? sep (c :: t) with
      | none => rw [ht] at hafter; cases hafter
      | some v =>
        rw [ht] at hafter
        cases hafter with
        | some huv =>
          rw [Text.cut?, hs, Text.cut?, ht]
          exact .some ⟨.nil, huv⟩
    | none =>
      rw [hs] at hafter
      cases ht : Text.after? sep (c :: t) with
      | some v => rw [ht] at hafter; cases hafter
      | none =>
        rw [hkept c s hs, hkept c t ht]
        exact rel_map ih fun p q hpq => ⟨hpq.1.cons c, hpq.2⟩
  | @turn w hw s t h ih =>
    have hleft := hkept '\n' s (after?_break (.inl rfl) hne hsep s)
    have hright : Text.cut? sep (w ++ t) = (Text.cut? sep t).map fun p => (w ++ p.1, p.2) := by
      have hn (u : Text) := hkept '\n' u (after?_break (.inl rfl) hne hsep u)
      have hr (u : Text) := hkept '\r' u (after?_break (.inr rfl) hne hsep u)
      rcases style_cases hw with rfl | rfl | rfl
      · rw [List.cons_append, hr, List.singleton_append, hn, Option.map_map]
        rfl
      · rw [List.cons_append, hn, List.singleton_append, hr, Option.map_map]
        rfl
      · exact hr t
    rw [hleft, hright]
    exact rel_map ih fun p q hpq => ⟨.turn hw hpq.1, hpq.2⟩

theorem infix_iff (h : Breaks s t) {part : Text} (hpart : Unbroken part) : part <:+: s ↔ part <:+: t := by
  rcases part with _ | ⟨a, part⟩
  · exact iff_of_true List.nil_infix List.nil_infix
  · have hcut := h.cut? (List.cons_ne_nil a part) hpart
    rw [← not_iff_not, ← Text.cut?_eq_none_iff, ← Text.cut?_eq_none_iff]
    exact rel_none_iff hcut

theorem trimStart {p : Char → Bool} (h : Breaks s t) (hp : BreakBlind p) :
    Breaks (Text.trimStart p s) (Text.trimStart p t) := h.dropWhile hp

theorem trimEnd {p : Char → Bool} (h : Breaks s t) (hp : BreakBlind p) :
    Breaks (Text.trimEnd p s) (Text.trimEnd p t) := (h.reverse.dropWhile hp).reverse

theorem strip (h : Breaks s t) : Breaks (Text.strip s) (Text.strip t) :=
  (h.trimStart (by decide)).trimEnd (by decide)

theorem dropBlanks (h : Breaks s t) : Breaks (Text.dropBlanks s) (Text.dropBlanks t) := h.trimStart (by decide)

end Breaks

/-! ### Searches -/

section
variable {α : Type} {R : α → α → Prop} {read : Reader Char α}

/-- Two searches side by side: in front of both texts the same character or a break of each is passed over, or
something is found in both. -/
inductive SideBySide (R : α → α → Prop) (read : Reader Char α) : Text → Text → Prop where
  | nil : SideBySide R read [] []
  | kept {c : Char} {s t : Text} (hs : read (c :: s) = none) (ht : read (c :: t) = none)
      (h : SideBySide R read s t) : SideBySide R read (c :: s) (c :: t)
  | turn {w s t : Text} (hw : w ∈ breakStyles) (hs : read ('\n' :: s) = none) (ht : Refused read w t)
      (h : SideBySide R read s t) : SideBySide R read ('\n' :: s) (w ++ t)
  | found {u v s t : Text} {a b : α} (hu : u ≠ []) (hv : v ≠ []) (hs : read (u ++ s) = some (a, s))
      (ht : read (v ++ t) = some (b, t)) (hab : R a b) (hst : Breaks s t) (h : SideBySide R read s t) :
      SideBySide R read (u ++ s) (v ++ t)

theorem ReadsThrough.sideBySide (hread : ReadsThrough R read) (htakes : Takes read) {s t : Text} (h : Breaks s t) :
    SideBySide R read s t := by
  induction s using htakes.induction generalizing t with
  | nil =>
    cases h
    exact .nil
  | kept c s hr ih =>
    have hnone {u : Text} (hu : Breaks (c :: s) u) : read u = none := (rel_none_iff (hread _ _ hu)).1 hr
    cases h with
    | cons _ h => exact .kept hr (hnone (.cons c h)) (ih h)
    | @turn w hw _ t h =>
      refine .turn hw hr ?_ (ih h)
      have hn : read ('\n' :: t) = none := hnone (.cons '\n' h)
      have hr : read ('\r' :: t) = none := hnone (.turn (w := ['\r']) (by decide) h)
      have hrn : read ('\r' :: '\n' :: t) = none := hnone (.turn (w := ['\r', '\n']) (by decide) h)
      have hnr : read ('\n' :: '\r' :: t) = none := hnone (.turn (w := ['\n', '\r']) (by decide) h)
      rcases Breaks.style_cases hw with rfl | rfl | rfl
      · exact .cons hrn (.cons hn (.nil read t))
      · exact .cons hnr (.cons hr (.nil read t))
      · exact .cons hr (.nil read t)
  | found u s a hu hr ih =>
    have hrel := hread _ _ h
    rw [hr] at hrel
    obtain ⟨⟨b, t'⟩, hr', hab, hrest⟩ := rel_some hrel
    obtain ⟨v, hv, rfl⟩ := htakes _ _ _ hr'
    exact .found hu hv hr hr' hab hrest (ih hrest)

namespace SideBySide

variable {s t : Text}

theorem mapFound (h : SideBySide R read s t) {write write' : α → Text}
    (hwrite : ∀ a b, R a b → Breaks (write a) (write' b)) :
    Breaks (Text.mapFound read write s) (Text.mapFound read write' t) := by
  induction h with
  | nil => exact .nil
  | kept hs ht _ ih =>
    rw [Text.mapFound_kept hs, Text.mapFound_kept ht]
    exact .cons _ ih
  | turn hw hs ht _ ih =>
    rw [Text.mapFound_kept hs, Text.mapFound_append ht]
    exact .turn hw ih
  | found hu hv hs ht hab _ _ ih =>
    rw [Text.mapFound_front hu hs, Text.mapFound_front hv ht]
    exact (hwrite _ _ hab).append ih

/-- What is found in both texts is related, one by one. -/
theorem found_related (h : SideBySide R read s t) : List.Forall₂ R (DocPages.found read s) (DocPages.found read t) := by
  induction h with
  | nil => exact .nil
  | kept hs ht _ ih => rwa [found_kept hs, found_kept ht]
  | turn hw hs ht _ ih => rwa [found_kept hs, found_append ht]
  | found hu hv hs ht hab _ _ ih =>
    rw [found_front hu hs, found_front hv ht]
    exact .cons hab ih

end SideBySide

end

theorem readsThrough_literal {part : Text} (hpart : Unbroken part) :
    ReadsThrough (fun _ _ => True) (Text.literal part) := fun _ _ h =>
  rel_map (h.after? hpart) fun _ _ h => ⟨trivial, h⟩

theorem Breaks.replace {s t part new new' : Text} (h : Breaks s t) (hne : part ≠ []) (hpart : Unbroken part)
    (hnew : Breaks new new') : Breaks (Text.replace part new s) (Text.replace part new' t) :=
  ((readsThrough_literal hpart).sideBySide (takes_literal hne) h).mapFound fun _ _ _ => hnew

/-! ## In either direction -/

/-- One of the texts has other breaks than the other. -/
def Likewise (s t : Text) : Prop := Breaks s t ∨ Breaks t s

namespace Likewise

variable {s t : Text}

theorem symm (h : Likewise s t) : Likewise t s := h.elim .inr .inl

/-- The texts are empty, or begin with the same character, or each begins with a break. -/
theorem cases_head (h : Likewise s t) : (s = [] ∧ t = []) ∨
    (∃ c s' t', c ≠ '\n' ∧ c ≠ '\r' ∧ s = c :: s' ∧ t = c :: t' ∧ Likewise s' t') ∨
      ∃ c d s' t', (c = '\n' ∨ c = '\r') ∧ (d = '\n' ∨ d = '\r') ∧ s = c :: s' ∧ t = d :: t' := by
  have hbreaks {s t : Text} (h : Breaks s t) : (s = [] ∧ t = []) ∨
      (∃ c s' t', c ≠ '\n' ∧ c ≠ '\r' ∧ s = c :: s' ∧ t = c :: t' ∧ Breaks s' t') ∨
        ∃ c d s' t', (c = '\n' ∨ c = '\r') ∧ (d = '\n' ∨ d = '\r') ∧ s = c :: s' ∧ t = d :: t' := by
    cases h with
    | nil => exact .inl ⟨rfl, rfl⟩
    | cons c h =>
      by_cases hc : c = '\n' ∨ c = '\r'
      · exact .inr (.inr ⟨c, c, _, _, hc, hc, rfl, rfl⟩)
      · exact .inr (.inl ⟨c, _, _, fun he => hc (.inl he), fun he => hc (.inr he), rfl, rfl, h⟩)
    | turn hw h =>
      rcases Breaks.style_cases hw with rfl | rfl | rfl
      · exact .inr (.inr ⟨_, _, _, _, .inl rfl, .inr rfl, rfl, rfl⟩)
      · exact .inr (.inr ⟨_, _, _, _, .inl rfl, .inl rfl, rfl, rfl⟩)
      · exact .inr (.inr ⟨_, _, _, _, .inl rfl, .inr rfl, rfl, rfl⟩)
  rcases h with h | h
  · rcases hbreaks h with hnil | ⟨c, s', t', hn, hr, hs, ht, h⟩ | hturn
    · exact .inl hnil
    · exact .inr (.inl ⟨c, s', t', hn, hr, hs, ht, .inl h⟩)
    · exact .inr (.inr hturn)
  · rcases hbreaks h with ⟨ht, hs⟩ | ⟨c, t', s', hn, hr, ht, hs, h⟩ | ⟨d, c, t', s', hd, hc, ht, hs⟩
    · exact .inl ⟨hs, ht⟩
    · exact .inr (.inl ⟨c, s', t', hn, hr, hs, ht, .inr h⟩)
    · exact .inr (.inr ⟨c, d, s', t', hc, hd, hs, ht⟩)

theorem cons_inv {c : Char} (h : Likewise (c :: s) t) (hn : c ≠ '\n') (hr : c ≠ '\r') :
    ∃ t', t = c :: t' ∧ Likewise s t' := by
  rcases h.cases_head with ⟨hs, -⟩ | ⟨d, s', t', -, -, hs, rfl, h⟩ | ⟨d, -, s', -, hd, -, hs, -⟩
  · cases hs
  · obtain ⟨rfl, rfl⟩ := List.cons.inj hs
    exact ⟨t', rfl, h⟩
  · obtain ⟨rfl, -⟩ := List.cons.inj hs
    exact absurd hd (not_or.2 ⟨hn, hr⟩)

theorem head?_eq_iff {c : Char} (h : Likewise s t) (hn : c ≠ '\n') (hr : c ≠ '\r') : s.head? = some c ↔ t.head? = some c := by
  have hone {s t : Text} (h : Likewise s t) (hs : s.head? = some c) : t.head? = some c := by
    obtain ⟨u, rfl⟩ := List.head?_eq_some_iff.1 hs
    obtain ⟨v, rfl, -⟩ := h.cons_inv hn hr
    rfl
  exact ⟨hone h, hone h.symm⟩

/-- A part without breaks stands in front of both texts or of neither. -/
theorem append_inv {q : Text} (hq : Unbroken q) (h : Likewise (q ++ s) t) : ∃ t', t = q ++ t' ∧ Likewise s t' := by
  induction q generalizing t with
  | nil => exact ⟨t, rfl, h⟩
  | cons c q ih =>
    obtain ⟨hn, hr⟩ : c ≠ '\n' ∧ c ≠ '\r' := ⟨fun he => hq.1 (by simp [he]), fun he => hq.2 (by simp [he])⟩
    have hq : Unbroken q := ⟨fun h => hq.1 (List.mem_cons_of_mem c h), fun h => hq.2 (List.mem_cons_of_mem c h)⟩
    obtain ⟨u, rfl, hu⟩ := h.cons_inv hn hr
    obtain ⟨t', rfl, ht'⟩ := ih hq hu
    exact ⟨t', rfl, ht'⟩

theorem dropWhile {p : Char → Bool} (h : Likewise s t) (hp : BreakBlind p) : Likewise (s.dropWhile p) (t.dropWhile p) :=
  h.imp (·.dropWhile hp) (·.dropWhile hp)

theorem takeWhile_eq {p : Char → Bool} (h : Likewise s t) (hn : p '\n' = false) (hr : p '\r' = false) :
    s.takeWhile p = t.takeWhile p :=
  h.elim (fun h => h.takeWhile_eq hn hr) fun h => (h.takeWhile_eq hn hr).symm

theorem after? (h : Likewise s t) {lead rest : Text} (hlead : Unbroken lead) (hs : Text.after? lead s = some rest) :
    ∃ rest', Text.after? lead t = some rest' ∧ Likewise rest rest' := by
  rcases h with h | h
  · have hrel := h.after? hlead
    rw [hs] at hrel
    obtain ⟨rest', ht, hrest⟩ := rel_some hrel
    exact ⟨rest', ht, .inl hrest⟩
  · have hrel := h.after? hlead
    cases ht : Text.after? lead t with
    | none =>
      rw [(rel_none_iff hrel).1 ht] at hs
      cases hs
    | some rest' =>
      rw [ht] at hrel
      obtain ⟨u, hu, hrest⟩ := rel_some hrel
      obtain rfl : u = rest := Option.some.inj (hu.symm.trans hs)
      exact ⟨rest', rfl, .inr hrest⟩

end Likewise

end DocPages
