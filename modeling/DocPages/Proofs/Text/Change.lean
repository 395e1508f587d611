import DocPages.Proofs.Text.Search
import Mathlib.Data.List.Infix

/-!
# Changes one after the other

A change puts a text in the place of all occurrences of another. When the texts that are put in are sealed,
no occurrence arises across their edges, so each of them goes its own way through the changes that come after
it. What is left in the end is therefore found by following the texts that come to light: the first one, and
each new text whose place is in one that has come to light before.
-/

namespace DocPages.Text

structure Change where
  old : Text
  new : Text

/-- The change that puts a blank in. -/
def Change.strike (c : Change) : Change := { c with new := [' '] }

def changeAll (cs : List Change) (t : Text) : Text := cs.foldl (fun t c => replace c.old c.new t) t

/-- The text with blanks for what the changes look for. -/
def strikeAll (cs : List Change) (t : Text) : Text := changeAll (cs.map Change.strike) t

/-- Which texts come to light, and with which changes still to come: the text itself with all of them, and the
new text of a change with those behind it, if its place is left in a text that has come to light when the
places of the changes in between have been struck. -/
inductive Surfaces (cs : List Change) (t : Text) : List Change → Text → Prop where
  | text : Surfaces cs t cs t
  | new {between rest : List Change} {c : Change} {u : Text}
      (h : Surfaces cs t (between ++ c :: rest) u) (hc : c.old <:+: strikeAll between u) :
      Surfaces cs t rest c.new

/-- No key begins in front of the edge between `s` and `t` and ends behind it. -/
def Break (Key : Text → Prop) (s t : Text) : Prop :=
  ∀ p q, Key (p ++ q) → p ≠ [] → q ≠ [] → p <:+ s → ¬ q <+: t

/-- Whatever stands around the text, no key crosses its edges. -/
structure Sealed (Key : Text → Prop) (t : Text) : Prop where
  front : ∀ p q, Key (p ++ q) → p ≠ [] → q ≠ [] → ∀ y, ¬ q <+: t ++ y
  back : ∀ p q, Key (p ++ q) → p ≠ [] → q ≠ [] → ∀ x, ¬ p <:+ x ++ t

section
variable {Key : Text → Prop} {k s t h new : Text}

theorem Sealed.break_front (h : Sealed Key t) (x y : Text) : Break Key x (t ++ y) :=
  fun p q hk hp hq _ => h.front p q hk hp hq y

theorem Sealed.break_back (h : Sealed Key t) (x y : Text) : Break Key (x ++ t) y :=
  fun p q hk hp hq hx _ => h.back p q hk hp hq x hx

theorem Break.suffix {u : Text} (h : Break Key s t) (hu : u <:+ s) : Break Key u t :=
  fun p q hk hp hq hpu => h p q hk hp hq (hpu.trans hu)

/-- A key that does not occur in front of an edge begins nowhere there. -/
theorem Break.clear (h : Break Key s t) (hk : Key k) (hs : ¬ k <:+: s) : Clear k s t := by
  rw [clear_iff]
  rintro a b rfl hb ⟨u, hu⟩
  rcases List.append_eq_append_iff.1 hu with ⟨m, rfl, -⟩ | ⟨q, rfl, ht⟩
  · exact hs ⟨a, m, by simp⟩
  · by_cases hq : q = []
    · subst hq
      exact hs ⟨a, [], by simp⟩
    · exact h b q hk hb hq (List.suffix_append a b) ⟨u, ht.symm⟩

theorem Break.infix_iff (h : Break Key s t) (hk : Key k) : k <:+: s ++ t ↔ k <:+: s ∨ k <:+: t := by
  constructor
  · rintro ⟨a, b, hab⟩
    by_cases hs : k <:+: s
    · exact .inl hs
    · right
      have hclear := clear_iff.1 (h.clear hk hs)
      rw [List.append_assoc] at hab
      rcases List.append_eq_append_iff.1 hab with ⟨m, rfl, hm⟩ | ⟨m, rfl, rfl⟩
      · by_cases hm' : m = []
        · exact ⟨[], b, by simpa [hm'] using hm⟩
        · exact absurd ⟨b, hm⟩ (hclear a m rfl hm')
      · exact ⟨m, b, by simp⟩
  · rintro (hs | ht)
    · exact hs.trans (List.infix_append' [] s t)
    · exact ht.trans (List.suffix_append s t).isInfix

/-- An occurrence that begins in front of another one does not reach behind it. -/
theorem Clear.extend {u : Text} (hc : Clear k s (k ++ t)) : Clear k s (k ++ (t ++ u)) := by
  rw [clear_iff] at hc ⊢
  intro a b hab hb hpre
  refine hc a b hab hb ?_
  have hlen : k.length ≤ (b ++ (k ++ t)).length := by simp; omega
  have heq : b ++ (k ++ (t ++ u)) = (b ++ (k ++ t)) ++ u := by simp
  rw [heq] at hpre
  exact List.prefix_of_prefix_length_le hpre (List.prefix_append _ u) hlen

/-- Both sides of an edge are changed on their own. -/
theorem Break.replace_append (h : Break Key s t) (hk : Key k) (hne : k ≠ []) (new : Text) :
    replace k new (s ++ t) = replace k new s ++ replace k new t := by
  induction s using occurrence_induction hne with
  | free s hs => rw [Text.replace_append (h.clear hk hs), replace_of_infix_free hs]
  | found before rest hclear ih =>
    have hrest : Break Key rest t := h.suffix ⟨before ++ k, by simp⟩
    have hfirst : Clear k before (k ++ (rest ++ t)) := hclear.extend
    rw [replace_found hne hclear, List.append_assoc, List.append_assoc, replace_found hne hfirst, ih hrest]
    simp

/-- A beginning of a key that ends a changed text ends the text itself. -/
theorem Sealed.suffix_of_replace (hnew : Sealed Key new) (hne : k ≠ []) {p q x : Text}
    (hpq : Key (p ++ q)) (hq : q ≠ []) (h : p <:+ x ++ replace k new t) : p <:+ x ++ t := by
  induction t using occurrence_induction hne generalizing x with
  | free t ht => rwa [replace_of_infix_free ht] at h
  | found before rest hclear ih =>
    rw [replace_found hne hclear] at h
    have hrest : p <:+ [] ++ replace k new rest := by
      obtain ⟨u, hu⟩ := h
      have hu : u ++ p = ((x ++ before) ++ new) ++ replace k new rest := by simpa using hu
      rcases List.append_eq_append_iff.1 hu with ⟨m, hm, rfl⟩ | ⟨m, rfl, hm⟩
      · by_cases hm' : m = []
        · exact ⟨[], by simp [hm']⟩
        · have hkey : Key (m ++ (replace k new rest ++ q)) := by rwa [← List.append_assoc]
          exact absurd ⟨u, hm.symm⟩ (hnew.back m _ hkey hm' (by simp [hq]) (x ++ before))
      · exact ⟨m, by simp [hm]⟩
    have hkept : p <:+ [] ++ rest := ih hrest
    exact hkept.trans ⟨x ++ (before ++ k), by simp⟩

/-- Sealed texts stay sealed when sealed texts are put in. -/
theorem Sealed.replace (h : Sealed Key t) (hnew : Sealed Key new) (hne : k ≠ []) :
    Sealed Key (replace k new t) where
  front := by
    intro p q hpq hp hq y hy
    induction t using occurrence_induction hne with
    | free t ht =>
      rw [replace_of_infix_free ht] at hy
      exact h.front p q hpq hp hq y hy
    | found before rest hclear =>
      rw [replace_found hne hclear] at hy
      obtain ⟨u, hu⟩ := hy
      have hsplit : q ++ u = before ++ (new ++ (Text.replace k new rest ++ y)) := by simpa using hu
      rcases List.append_eq_append_iff.1 hsplit with ⟨m, rfl, -⟩ | ⟨m, rfl, hm⟩
      · exact h.front p q hpq hp hq [] ⟨m ++ (k ++ rest), by simp⟩
      · by_cases hm' : m = []
        · subst hm'
          exact h.front p _ hpq hp hq [] ⟨k ++ rest, by simp⟩
        · have hkey : Key ((p ++ before) ++ m) := by rwa [List.append_assoc]
          exact hnew.front (p ++ before) m hkey (by simp [hp]) hm' _ ⟨u, hm.symm⟩
  back := by
    intro p q hpq hp hq x hx
    exact h.back p q hpq hp hq x (hnew.suffix_of_replace hne hpq hq hx)

end

/-- What is looked for is never empty and holds no blank. -/
def Keys (Key : Text → Prop) : Prop := ∀ k, Key k → k ≠ [] ∧ ' ' ∉ k

/-- The changes look for keys and put sealed texts in. -/
def SealedChanges (Key : Text → Prop) (cs : List Change) : Prop :=
  ∀ c ∈ cs, Key c.old ∧ Sealed Key c.new

section
variable {Key : Text → Prop} {cs : List Change} {k t h part : Text}

theorem sealed_blank (hkeys : Keys Key) : Sealed Key [' '] where
  front := by
    rintro p q hpq hp hq y ⟨u, hu⟩
    cases q with
    | nil => exact hq rfl
    | cons c q =>
      obtain ⟨rfl, -⟩ := List.cons.inj hu
      exact (hkeys _ hpq).2 (by simp)
  back := by
    intro p q hpq hp hq x hx
    rcases List.suffix_concat_iff.1 hx with rfl | ⟨u, rfl, -⟩
    · exact hp rfl
    · exact (hkeys _ hpq).2 (by simp)

theorem not_infix_blank (hkeys : Keys Key) (hk : Key k) : ¬ k <:+: [' '] := by
  obtain ⟨hne, hblank⟩ := hkeys k hk
  intro h
  obtain ⟨a, u, rfl⟩ := List.exists_cons_of_ne_nil hne
  have ha : a = ' ' := by simpa using h.subset (List.mem_cons_self ..)
  exact hblank (by simp [ha])

/-- A sealed text and what stands on its sides are changed on their own. -/
theorem changeAll_sealed (hkeys : Keys Key) (hcs : SealedChanges Key cs) (hh : Sealed Key h) (x y : Text) :
    changeAll cs (x ++ (h ++ y)) = changeAll cs x ++ (changeAll cs h ++ changeAll cs y) := by
  induction cs generalizing x h y with
  | nil => rfl
  | cons c cs ih =>
    obtain ⟨hold, hnew⟩ := hcs c (by simp)
    have hne := (hkeys c.old hold).1
    have hrest : SealedChanges Key cs := fun d hd => hcs d (by simp [hd])
    have hsplit : replace c.old c.new (x ++ (h ++ y)) =
        replace c.old c.new x ++ (replace c.old c.new h ++ replace c.old c.new y) := by
      rw [(hh.break_front x y).replace_append hold hne,
        (show Break Key h y from hh.break_back [] y).replace_append hold hne]
    have hstep (u : Text) : changeAll (c :: cs) u = changeAll cs (replace c.old c.new u) := rfl
    rw [hstep, hstep, hstep, hstep, hsplit]
    exact ih hrest (hh.replace hnew hne) _ _

theorem changeAll_cons (c : Change) (cs : List Change) (t : Text) :
    changeAll (c :: cs) t = changeAll cs (replace c.old c.new t) := rfl

theorem changeAll_append (cs cs' : List Change) (t : Text) :
    changeAll (cs ++ cs') t = changeAll cs' (changeAll cs t) := List.foldl_append

theorem strikeAll_cons (c : Change) (cs : List Change) (t : Text) :
    strikeAll (c :: cs) t = strikeAll cs (replace c.old [' '] t) := rfl

theorem Sealed.infix_iff (hh : Sealed Key h) (hpart : Key part) (x y : Text) :
    part <:+: x ++ (h ++ y) ↔ part <:+: x ∨ part <:+: h ∨ part <:+: y := by
  rw [(hh.break_front x y).infix_iff hpart,
    (show Break Key h y from hh.break_back [] y).infix_iff hpart]

theorem Sealed.changeAll (hkeys : Keys Key) (hcs : SealedChanges Key cs) (hh : Sealed Key h) :
    Sealed Key (changeAll cs h) := by
  induction cs generalizing h with
  | nil => exact hh
  | cons c cs ih =>
    obtain ⟨hold, hnew⟩ := hcs c (by simp)
    exact ih (fun d hd => hcs d (by simp [hd])) (hh.replace hnew (hkeys c.old hold).1)

/-- A blank stays as it is. -/
theorem changeAll_blank (hkeys : Keys Key) (hcs : SealedChanges Key cs) : changeAll cs [' '] = [' '] := by
  induction cs with
  | nil => rfl
  | cons c cs ih =>
    rw [changeAll_cons, replace_of_infix_free (not_infix_blank hkeys (hcs c (by simp)).1)]
    exact ih fun d hd => hcs d (by simp [hd])

/-- What is left after a sealed text has been put in is left outside its places, or in the text itself. -/
theorem infix_changeAll_replace (hkeys : Keys Key) (hcs : SealedChanges Key cs) (hk : Key k)
    (hh : Sealed Key h) (hpart : Key part) (t : Text) :
    part <:+: changeAll cs (replace k h t) ↔
      part <:+: changeAll cs (replace k [' '] t) ∨ k <:+: t ∧ part <:+: changeAll cs h := by
  have hne := (hkeys k hk).1
  have hb := sealed_blank hkeys
  have hblank : ¬ part <:+: [' '] := not_infix_blank hkeys hpart
  induction t using occurrence_induction hne with
  | free t ht =>
    rw [replace_of_infix_free ht, replace_of_infix_free ht]
    simp [ht]
  | found before rest hclear ih =>
    have hplace : k <:+: before ++ (k ++ rest) := ⟨before, rest, by simp⟩
    have hrest : part <:+: changeAll cs (replace k h rest) ↔
        part <:+: changeAll cs (replace k [' '] rest) ∨ k <:+: rest ∧ part <:+: changeAll cs h := ih
    rw [replace_found hne hclear, replace_found hne hclear,
      changeAll_sealed hkeys hcs hh, changeAll_sealed hkeys hcs hb,
      (hh.changeAll hkeys hcs).infix_iff hpart, (hb.changeAll hkeys hcs).infix_iff hpart,
      changeAll_blank hkeys hcs, hrest]
    tauto

/-- Striking gives no new occurrence of a key. -/
theorem infix_of_replace_blank (hkeys : Keys Key) (hk : Key k) (hpart : Key part)
    (h : part <:+: replace k [' '] t) : part <:+: t := by
  induction t using occurrence_induction (hkeys k hk).1 with
  | free t ht => rwa [replace_of_infix_free ht] at h
  | found before rest hclear ih =>
    rw [replace_found (hkeys k hk).1 hclear, (sealed_blank hkeys).infix_iff hpart] at h
    rcases h with h | h | h
    · exact h.trans ⟨[], k ++ rest, by simp⟩
    · exact absurd h (not_infix_blank hkeys hpart)
    · exact (ih h).trans ⟨before ++ k, [], by simp⟩

/-- A key that has been replaced by a text without it occurs no more. -/
theorem not_infix_replace_self (hkeys : Keys Key) (hk : Key k) (hh : Sealed Key h) (hnew : ¬ k <:+: h)
    (t : Text) : ¬ k <:+: replace k h t := by
  have hne := (hkeys k hk).1
  induction t using occurrence_induction hne with
  | free t ht => rwa [replace_of_infix_free ht]
  | found before rest hclear ih =>
    have hbefore : ¬ k <:+: before := hclear.infix_free hne
    rw [replace_found hne hclear, hh.infix_iff hk]
    tauto

/-- A key that occurs in no text that is put in does not arise. -/
theorem not_infix_changeAll (hkeys : Keys Key) (hcs : SealedChanges Key cs) (hpart : Key part)
    (hnew : ∀ c ∈ cs, ¬ part <:+: c.new) (ht : ¬ part <:+: t) : ¬ part <:+: changeAll cs t := by
  induction cs generalizing t with
  | nil => exact ht
  | cons c cs ih =>
    obtain ⟨hold, hsealed⟩ := hcs c (by simp)
    refine ih (fun d hd => hcs d (by simp [hd])) (fun d hd => hnew d (by simp [hd])) ?_
    intro h
    have hnil : SealedChanges Key [] := by simp [SealedChanges]
    rcases (infix_changeAll_replace hkeys hnil hold hsealed hpart t).1 h with h | ⟨-, h⟩
    · exact ht (infix_of_replace_blank hkeys hold hpart h)
    · exact hnew c (by simp) h

/-! ## What comes to light -/

theorem Surfaces.trans {cs' rest : List Change} {u v : Text} (h : Surfaces cs t cs' u)
    (h' : Surfaces cs' u rest v) : Surfaces cs t rest v := by
  induction h' with
  | text => exact h
  | new _ hc ih => exact .new ih hc

/-- What comes to light when the first change has only struck its places comes to light anyway, the struck
text itself apart. -/
theorem Surfaces.of_strike {c : Change} {rest : List Change} {u : Text}
    (h : Surfaces cs (replace c.old [' '] t) rest u) :
    rest = cs ∧ u = replace c.old [' '] t ∨ Surfaces (c :: cs) t rest u := by
  induction h with
  | text => exact .inl ⟨rfl, rfl⟩
  | @new between rest d u _ hd ih =>
    right
    rcases ih with ⟨hcs, rfl⟩ | hu
    · have htext : Surfaces (c :: cs) t ((c :: between) ++ d :: rest) t := by
        rw [List.cons_append, hcs]
        exact .text
      exact .new htext (by rwa [strikeAll_cons])
    · exact .new hu hd

/-- What is left when all places have been struck is left. -/
theorem infix_of_strikeAll (hkeys : Keys Key) (hcs : SealedChanges Key cs) (hpart : Key part)
    (h : part <:+: strikeAll cs t) : part <:+: changeAll cs t := by
  induction cs generalizing t with
  | nil => exact h
  | cons c cs ih =>
    obtain ⟨hold, hnew⟩ := hcs c (by simp)
    have hrest : SealedChanges Key cs := fun d hd => hcs d (by simp [hd])
    rw [strikeAll_cons] at h
    rw [changeAll_cons, infix_changeAll_replace hkeys hrest hold hnew hpart]
    exact .inl (ih hrest h)

/-- What is left in a text that comes to light is left in the whole. -/
theorem Surfaces.infix_changeAll (hkeys : Keys Key) (hcs : SealedChanges Key cs) (hpart : Key part)
    {rest : List Change} {u : Text} (hu : Surfaces cs t rest u) :
    SealedChanges Key rest ∧ (part <:+: changeAll rest u → part <:+: changeAll cs t) := by
  induction hu with
  | text => exact ⟨hcs, id⟩
  | @new between rest c u _ hc ih =>
    obtain ⟨hall, hleft⟩ := ih
    have hbetween : SealedChanges Key between := fun d hd => hall d (by simp [hd])
    have hrest : SealedChanges Key rest := fun d hd => hall d (by simp [hd])
    obtain ⟨hold, hnew⟩ := hall c (by simp)
    refine ⟨hrest, fun h => hleft ?_⟩
    have hplace : c.old <:+: changeAll between u := infix_of_strikeAll hkeys hbetween hold hc
    rw [changeAll_append, changeAll_cons, infix_changeAll_replace hkeys hrest hold hnew hpart]
    exact .inr ⟨hplace, h⟩

/-- A key is left after all changes exactly if some text comes to light in which it is left when the places
of the changes still to come are struck. -/
theorem infix_changeAll_iff (hkeys : Keys Key) (hcs : SealedChanges Key cs) (hpart : Key part) (t : Text) :
    part <:+: changeAll cs t ↔ ∃ rest u, Surfaces cs t rest u ∧ part <:+: strikeAll rest u := by
  constructor
  · intro h
    induction cs generalizing t with
    | nil => exact ⟨[], t, .text, h⟩
    | cons c cs ih =>
      obtain ⟨hold, hnew⟩ := hcs c (by simp)
      have hrest : SealedChanges Key cs := fun d hd => hcs d (by simp [hd])
      rw [changeAll_cons, infix_changeAll_replace hkeys hrest hold hnew hpart] at h
      rcases h with h | ⟨hplace, h⟩
      · obtain ⟨rest, u, hu, hleft⟩ := ih hrest _ h
        rcases hu.of_strike with ⟨rfl, rfl⟩ | hu
        · exact ⟨c :: rest, t, .text, hleft⟩
        · exact ⟨rest, u, hu, hleft⟩
      · obtain ⟨rest, u, hu, hleft⟩ := ih hrest _ h
        have htext : Surfaces (c :: cs) t ([] ++ c :: cs) t := .text
        have hfirst : Surfaces (c :: cs) t cs c.new := .new htext hplace
        exact ⟨rest, u, hfirst.trans hu, hleft⟩
  · rintro ⟨rest, u, hu, hleft⟩
    obtain ⟨hrest, hwhole⟩ := hu.infix_changeAll hkeys hcs hpart
    exact hwhole (infix_of_strikeAll hkeys hrest hpart hleft)

end

end DocPages.Text
