import DocPages.Proofs.Html.Escape
import DocPages.Proofs.Html.Fragment
import Mathlib.Data.List.Perm.Basic

/-!
# Escaping by replacement

Text is escaped by replacing one character of markup after the other wherever it stands, and read back by replacing one
entity after the other. Every entity begins with an ampersand, so ampersands are the first to be escaped and the last
to be read back; the four other characters stand in no entity and may come in any order. In between, the text has some
of the characters as entities and the others as they are, which is what each replacement changes by one character.
-/

namespace DocPages

namespace Html

/-- The characters with an entity are replaced by it, one after the other. -/
def escapeInTurn : List (Text × Char) → Text → Text
  | [], t => t
  | (e, c) :: ms, t => escapeInTurn ms (Text.replace [c] e t)

/-- The entities are replaced by their characters, one after the other. -/
def unescapeInTurn : List (Text × Char) → Text → Text
  | [], t => t
  | (e, c) :: ms, t => unescapeInTurn ms (Text.replace e [c] t)

/-- A character as it is written while only the given marks are escaped. -/
def escapeCharOnly (ms : List (Text × Char)) (c : Char) : Text := if c ∈ ms.map Prod.snd then escapeChar c else [c]

/-- The text with the characters of the given marks as entities and all others as they are. -/
def escapeOnly (ms : List (Text × Char)) (t : Text) : Text := t.flatMap (escapeCharOnly ms)

/-! ## Entities -/

theorem eq_escapeChar_of_mem {e : Text} {c : Char} (h : (e, c) ∈ marks) : e = escapeChar c := by
  have hall : ∀ m ∈ marks, m.1 = escapeChar m.2 := by decide
  exact hall _ h

/-- An entity is an ampersand with a name behind it. -/
theorem exists_name_of_mem {e : Text} {c : Char} (h : (e, c) ∈ marks) : ∃ name, e = '&' :: name ∧ '&' ∉ name := by
  have hall : ∀ m ∈ marks, m.1 = '&' :: m.1.tail ∧ '&' ∉ m.1.tail := by decide
  exact ⟨_, hall _ h⟩

/-- No entity begins with another. -/
theorem mark_unique {m m' : Text × Char} (hm : m ∈ marks) (hm' : m' ∈ marks) (h : m.1 <+: m'.1) : m = m' := by
  have hall : ∀ m ∈ marks, ∀ m' ∈ marks, m.1 <+: m'.1 → m = m' := by decide
  exact hall m hm m' hm' h

/-- An entity does not begin inside another, whatever follows. -/
theorem clear_of_ne {m m' : Text × Char} (hm : m ∈ marks) (hm' : m' ∈ marks) (hne : m ≠ m') (t : Text) :
    Text.Clear m.1 m'.1 t := by
  obtain ⟨name, hname, -⟩ := exists_name_of_mem (c := m.2) hm
  obtain ⟨name', hname', hfree⟩ := exists_name_of_mem (c := m'.2) hm'
  have hfront : ¬ m.1 <+: m'.1 ++ t := fun hp => by
    rcases List.prefix_or_prefix_of_prefix hp (List.prefix_append m'.1 t) with h | h
    · exact hne (mark_unique hm hm' h)
    · exact hne (mark_unique hm' hm h).symm
  rw [hname'] at hfront ⊢
  rw [hname] at hfront ⊢
  exact .cons (Text.literal_eq_none_iff.2 hfront) (Text.clear_of_notMem hfree t)

/-! ## One replacement -/

section
variable {e : Text} {c d : Char} {ms : List (Text × Char)}

theorem escapeCharOnly_self (h : (e, c) ∈ marks) : escapeCharOnly ((e, c) :: ms) c = e := by
  rw [escapeCharOnly, if_pos (by simp), eq_escapeChar_of_mem h]

theorem escapeCharOnly_of_ne (h : d ≠ c) : escapeCharOnly ((e, c) :: ms) d = escapeCharOnly ms d := by
  have hmem : d ∈ ((e, c) :: ms).map Prod.snd ↔ d ∈ ms.map Prod.snd := by simp [h]
  exact if_congr hmem rfl rfl

theorem escapeCharOnly_of_notMem (h : d ∉ ms.map Prod.snd) : escapeCharOnly ms d = [d] := if_neg h

theorem escapeOnly_cons (d : Char) (t : Text) : escapeOnly ms (d :: t) = escapeCharOnly ms d ++ escapeOnly ms t := rfl

/-- Brackets and quotes stand in no entity. An ampersand stands in each, so nothing may be escaped before it. -/
theorem notMem_escapeCharOnly (h : (e, c) ∈ marks) (hamp : c = '&' → ms = []) (hd : d ≠ c) :
    c ∉ escapeCharOnly ms d := by
  have hkinds : ∀ m ∈ marks, m.2 = '&' ∨ m.2 ∈ ['<', '>', '"', '\''] := by decide
  have hself : c ∉ [d] := by simpa using Ne.symm hd
  rcases hkinds _ h with hc | hc
  · rw [hamp hc]
    exact hself
  · have hnot := notMem_escape hc [d]
    rw [escape, List.flatMap_singleton] at hnot
    unfold escapeCharOnly
    split
    · exact hnot
    · exact hself

/-- A character that is replaced by its entity wherever it stands joins those that are escaped. -/
theorem replace_char_escapeOnly (h : (e, c) ∈ marks) (hamp : c = '&' → ms = []) (hc : c ∉ ms.map Prod.snd) (t : Text) :
    Text.replace [c] e (escapeOnly ms t) = escapeOnly ((e, c) :: ms) t := by
  induction t with
  | nil => rfl
  | cons d t ih =>
    rw [escapeOnly_cons, escapeOnly_cons, ← ih]
    by_cases hd : d = c
    · rw [hd, escapeCharOnly_of_notMem hc, escapeCharOnly_self h]
      exact Text.replace_self (by simp)
    · rw [escapeCharOnly_of_ne hd]
      exact Text.replace_append (Text.clear_of_notMem (notMem_escapeCharOnly h hamp hd) _)

/-- As long as ampersands are escaped, an entity begins only where it stands for its character. -/
theorem clear_escapeCharOnly (h : (e, c) ∈ marks) (hms : ms ⊆ marks) (hamp : '&' ∈ c :: ms.map Prod.snd) (hd : d ≠ c)
    (t : Text) : Text.Clear e (escapeCharOnly ms d) t := by
  unfold escapeCharOnly
  split
  · next hmem =>
    obtain ⟨m, hm, rfl⟩ := List.mem_map.1 hmem
    rw [← eq_escapeChar_of_mem (hms hm)]
    exact clear_of_ne (m := (e, c)) h (hms hm) (fun heq => hd (congrArg Prod.snd heq).symm) t
  · next hmem =>
    have hd' : '&' ∉ [d] := by
      rw [List.mem_singleton]
      rintro rfl
      exact (List.mem_cons.1 hamp).elim hd hmem
    obtain ⟨name, rfl, -⟩ := exists_name_of_mem h
    exact Text.clear_of_notMem hd' t

/-- As long as ampersands are escaped, replacing an entity wherever it stands brings back its character. -/
theorem replace_entity_escapeOnly (h : (e, c) ∈ marks) (hms : ms ⊆ marks) (hc : c ∉ ms.map Prod.snd)
    (hamp : '&' ∈ c :: ms.map Prod.snd) (t : Text) :
    Text.replace e [c] (escapeOnly ((e, c) :: ms) t) = escapeOnly ms t := by
  have hne : e ≠ [] := by
    obtain ⟨name, rfl, -⟩ := exists_name_of_mem h
    simp
  induction t with
  | nil => rfl
  | cons d t ih =>
    rw [escapeOnly_cons, escapeOnly_cons, ← ih]
    by_cases hd : d = c
    · rw [hd, escapeCharOnly_of_notMem hc, escapeCharOnly_self h]
      exact Text.replace_self hne
    · rw [escapeCharOnly_of_ne hd]
      exact Text.replace_append (clear_escapeCharOnly h hms hamp hd _)

/-! ## All replacements -/

theorem escapeOnly_nil (t : Text) : escapeOnly [] t = t := List.flatMap_singleton' t

/-- With all marks, nothing is left to escape. -/
theorem escapeOnly_eq_escape (h : marks ⊆ ms) (t : Text) : escapeOnly ms t = escape t := by
  refine congrArg (List.flatMap · t) (funext fun c => ?_)
  unfold escapeCharOnly
  split
  · rfl
  · next hmem =>
    rcases escapeChar_cases c with hc | ⟨hc, -⟩
    · exact absurd (List.mem_map.2 ⟨_, h hc, rfl⟩) hmem
    · exact hc.symm

/-- The mark whose character all entities begin with. -/
def ampersand : Text × Char := ("&amp;", '&')

theorem nodup_of_perm (h : (ampersand :: ms).Perm marks) : ((ampersand :: ms).map Prod.snd).Nodup := by
  have hmarks : (marks.map Prod.snd).Nodup := by decide
  exact (h.map Prod.snd).nodup_iff.2 hmarks

/-- Brackets and quotes join what has been escaped before them, one after the other. -/
theorem escapeInTurn_escapeOnly {done : List (Text × Char)} (hms : ms ⊆ marks) (hamp : '&' ∉ ms.map Prod.snd)
    (hnodup : ((ms ++ done).map Prod.snd).Nodup) (t : Text) :
    escapeInTurn ms (escapeOnly done t) = escapeOnly (ms.reverse ++ done) t := by
  induction ms generalizing done with
  | nil => rfl
  | cons m ms ih =>
    obtain ⟨hm, hms⟩ := List.cons_subset.1 hms
    obtain ⟨hne, hamp⟩ : '&' ≠ m.2 ∧ '&' ∉ ms.map Prod.snd := by simpa using hamp
    have hfresh : m.2 ∉ done.map Prod.snd := by
      rw [List.cons_append, List.map_cons, List.nodup_cons, List.map_append] at hnodup
      exact fun hmem => hnodup.1 (List.mem_append_right _ hmem)
    have hnodup' : ((ms ++ m :: done).map Prod.snd).Nodup := (List.perm_middle.map Prod.snd).nodup_iff.2 hnodup
    rw [escapeInTurn, replace_char_escapeOnly hm (fun heq => absurd heq.symm hne) hfresh, ih hms hamp hnodup',
      List.reverse_cons, List.append_assoc]
    rfl

/-- Ampersands are escaped first, and then the others in any order. -/
theorem escapeInTurn_eq_escape (h : (ampersand :: ms).Perm marks) (t : Text) :
    escapeInTurn (ampersand :: ms) t = escape t := by
  have hnodup := nodup_of_perm h
  have hlast : ((ms ++ [ampersand]).map Prod.snd).Nodup :=
    ((List.perm_append_singleton ampersand ms).map Prod.snd).nodup_iff.2 hnodup
  have hmarks : marks ⊆ ms.reverse ++ [ampersand] := fun m hm => by
    simpa [or_comm] using h.mem_iff.2 hm
  calc escapeInTurn (ampersand :: ms) t
    _ = escapeInTurn ms (Text.replace ['&'] "&amp;" (escapeOnly [] t)) := by
        rw [escapeOnly_nil]
        rfl
    _ = escapeInTurn ms (escapeOnly [ampersand] t) := by
        rw [replace_char_escapeOnly (by decide) (fun _ => rfl) (by simp)]
        rfl
    _ = escapeOnly (ms.reverse ++ [ampersand]) t :=
        escapeInTurn_escapeOnly (List.subset_of_cons_subset h.subset) (List.nodup_cons.1 hnodup).1 hlast t
    _ = escape t := escapeOnly_eq_escape hmarks t

theorem unescapeInTurn_escapeOnly (hms : ms ⊆ marks) (hnodup : ((ms ++ [ampersand]).map Prod.snd).Nodup) (t : Text) :
    unescapeInTurn (ms ++ [ampersand]) (escapeOnly (ms ++ [ampersand]) t) = t := by
  induction ms with
  | nil =>
    have hlast : Text.replace "&amp;" ['&'] (escapeOnly [ampersand] t) = escapeOnly [] t :=
      replace_entity_escapeOnly (by decide) (by simp) (by simp) (by simp) t
    exact hlast.trans (escapeOnly_nil t)
  | cons m ms ih =>
    obtain ⟨hm, hms⟩ := List.cons_subset.1 hms
    obtain ⟨hfresh, hnodup⟩ := List.nodup_cons.1 hnodup
    have hrest : ms ++ [ampersand] ⊆ marks := List.append_subset.2 ⟨hms, by decide⟩
    have hamp : '&' ∈ m.2 :: (ms ++ [ampersand]).map Prod.snd := by simp [ampersand]
    rw [List.cons_append, unescapeInTurn, replace_entity_escapeOnly hm hrest hfresh hamp, ih hms hnodup]

/-- Entities are read back in any order, ampersands last. -/
theorem unescapeInTurn_escape (h : (ampersand :: ms).Perm marks) (t : Text) :
    unescapeInTurn (ms ++ [ampersand]) (escape t) = t := by
  have hperm := List.perm_append_singleton ampersand ms
  rw [← escapeOnly_eq_escape (hperm.trans h).symm.subset]
  exact unescapeInTurn_escapeOnly (List.subset_of_cons_subset h.subset)
    ((hperm.map Prod.snd).nodup_iff.2 (nodup_of_perm h)) t

/-- With brackets first, the ampersands of their entities would be escaped once more. -/
example : escapeInTurn [("&lt;", '<'), ampersand] "<" = "&amp;lt;" := by decide

end

/-! ## Escaped text -/

/-- The vocabulary of text alone. -/
def tagless : Vocabulary := ⟨fun _ _ => False, fun _ _ => False⟩

theorem wellFormed_escape (t : Text) : WellFormed tagless (escape t) :=
  Fragment.wellFormed ⟨False.elim, False.elim⟩ (.escape t)

/-- Escaped text holds neither brackets nor quotes, and each ampersand in it begins an entity. It comes from replacing
the characters of markup one after the other, and replacing the entities gives the text back, in one pass or one after
the other with ampersands last, so different texts are escaped differently. Texts are escaped piece by piece. -/
theorem escape_lossless :
    (∀ t : Text,
      (∀ c ∈ ['<', '>', '"', '\''], c ∉ escape t) ∧
      (∀ a b, escape t = a ++ '&' :: b → ∃ y, '&' :: y ∈ entities ∧ y <+: b) ∧
      escapeInTurn marks t = escape t ∧ unescape (escape t) = t ∧
      ∀ ms, (ampersand :: ms).Perm marks → unescapeInTurn (ms ++ [ampersand]) (escape t) = t) ∧
    Function.Injective escape ∧ ∀ s t, escape (s ++ t) = escape s ++ escape t :=
  ⟨fun t => ⟨fun _ hc => notMem_escape hc t, (wellFormed_escape t).amp, escapeInTurn_eq_escape (.refl _) t,
      unescape_escape t, fun _ h => unescapeInTurn_escape h t⟩,
    escape_injective, escape_append⟩

/-- The text holds an entity already, and its quotes are read back before its brackets. -/
theorem escape_lossless_of_entity :
    let t : Text := "'<&lt;"
    let ms : List (Text × Char) := [("&#x27;", '\''), ("&quot;", '"'), ("&gt;", '>'), ("&lt;", '<')]
    '<' ∈ ['<', '>', '"', '\''] ∧ '<' ∉ escape t ∧
      escape t = "&#x27;&lt;" ++ '&' :: "amp;lt;" ∧ (∃ y, '&' :: y ∈ entities ∧ y <+: "amp;lt;") ∧
      (ampersand :: ms).Perm marks ∧ unescapeInTurn (ms ++ [ampersand]) (escape t) = t := by
  intro t ms
  obtain ⟨hfree, hamp, -, -, hback⟩ := escape_lossless.1 t
  have hpart : escape t = "&#x27;&lt;" ++ '&' :: "amp;lt;" := by decide
  have hperm : (ampersand :: ms).Perm marks := by decide
  exact ⟨by decide, hfree '<' (by decide), hpart, hamp _ _ hpart, hperm, hback ms hperm⟩

end Html

end DocPages
