import DocPages.Proofs.Text.Takes
import DocPages.Proofs.Text.Trim

/-!
# Counting occurrences

The occurrences of a part in a text are counted from the front, each behind the one before. Two texts together hold as many
as both of them, unless one begins in the first and ends in the second; blanks around a text hold none.
-/

namespace DocPages.Text

/-- How often a part occurs. -/
def occurrences (part t : Text) : Nat := (found (literal part) t).length

/-- The end of the text is no beginning of the part, unless the whole part begins there. -/
def Severed (part s : Text) : Prop := ∀ b, b <:+ s → b ≠ [] → b <+: part → part <+: b

instance (part s : Text) : Decidable (Severed part s) :=
  decidable_of_iff (∀ b ∈ s.tails, b ≠ [] → b <+: part → part <+: b) (by simp only [List.mem_tails, Severed])

section
variable {part s t b : Text} {c : Char}

theorem severed_of_notMem (h : c ∉ s) (part : Text) : Severed (c :: part) s := by
  intro b hb hne hfront
  obtain ⟨d, b, rfl⟩ := List.exists_cons_of_ne_nil hne
  obtain rfl : d = c := (List.cons_prefix_cons.1 hfront).1
  exact absurd (hb.subset List.mem_cons_self) h

/-- A text that ends with another character than the part has is cut off from it. -/
theorem severed_concat (h : c ∉ part) (s : Text) : Severed part (s ++ [c]) := by
  intro b hb hne hfront
  have hlast : b.getLast? = some c := by
    obtain ⟨a, ha⟩ := hb
    have hsame := congrArg List.getLast? ha
    rw [List.getLast?_append_of_ne_nil _ hne] at hsame
    simpa using hsame
  exact absurd (hfront.subset (List.mem_of_getLast? hlast)) h

theorem Severed.append (hs : Severed part s) (ht : Severed part t) : Severed part (s ++ t) := by
  intro b hb hne hfront
  obtain ⟨a, ha⟩ := hb
  rcases List.append_eq_append_iff.1 ha with ⟨x, rfl, rfl⟩ | ⟨x, rfl, rfl⟩
  · cases x with
    | nil => exact ht t (List.suffix_refl t) hne hfront
    | cons d x =>
      have hfirst := hs (d :: x) (List.suffix_append a _) (by simp) ((List.prefix_append _ t).trans hfront)
      exact hfirst.trans (List.prefix_append _ t)
  · exact ht b (List.suffix_append x b) hne hfront

theorem Severed.of_suffix (h : Severed part s) (hb : b <:+ s) : Severed part b := fun b' hb' =>
  h b' (hb'.trans hb)

theorem splits_of_severed (hne : part ≠ []) (h : Severed part s) : Splits (literal part) s := by
  intro t
  induction s using (takes_literal hne).induction with
  | nil => rfl
  | kept c s hr ih =>
    have hnone : literal part (c :: (s ++ t)) = none := by
      refine literal_eq_none_iff.2 fun hfront => literal_eq_none_iff.1 hr ?_
      rcases List.prefix_or_prefix_of_prefix hfront (List.prefix_append (c :: s) t) with hwhole | hcut
      · exact hwhole
      · exact h (c :: s) (List.suffix_refl _) (by simp) hcut
    rw [pieces_kept hr, List.cons_append, pieces_kept hnone, ih (h.of_suffix (List.suffix_cons c s)), List.cons_append]
  | found u s a hu hr ih =>
    obtain ⟨v, hv, he⟩ := Option.map_eq_some_iff.1 hr
    obtain rfl : v = s := congrArg Prod.snd he
    obtain rfl : u = part := List.append_cancel_right (eq_append_of_after? hv)
    have hlonger : literal u (u ++ (v ++ t)) = some ((), v ++ t) := by rw [literal, after?_append]; rfl
    rw [pieces_front hu hr, List.append_assoc, pieces_front hu hlonger, ih (h.of_suffix (List.suffix_append u v)),
      List.cons_append]

/-- Where a part neither occurs nor begins, it is not met whatever follows. -/
theorem Severed.clear (h : Severed part s) (hfree : ¬ part <:+: s) (t : Text) : Clear part s t := by
  rw [clear_iff]
  rintro a b rfl hb hfront
  rcases List.prefix_or_prefix_of_prefix hfront (List.prefix_append b t) with hwhole | hcut
  · exact hfree (hwhole.isInfix.trans (List.suffix_append a b).isInfix)
  · exact hfree ((h b (List.suffix_append a b) hb hcut).isInfix.trans (List.suffix_append a b).isInfix)

theorem occurrences_append (hne : part ≠ []) (h : Severed part s) (t : Text) :
    occurrences part (s ++ t) = occurrences part s + occurrences part t := by
  rw [occurrences, found, splits_of_severed hne h, List.filterMap_append, List.length_append]
  rfl

theorem occurrences_of_not_infix (h : ¬ part <:+: s) : occurrences part s = 0 := by
  rw [occurrences, found_eq_nil_iff.2 (clear_of_absent h)]
  rfl

theorem occurrences_of_notMem (h : c ∉ s) (part : Text) : occurrences (c :: part) s = 0 :=
  occurrences_of_not_infix fun hi => h (hi.subset List.mem_cons_self)

/-- What shares no character with a part holds none of its occurrences, not even the end of one. -/
theorem occurrences_behind (hne : part ≠ []) (hb : ∀ c ∈ b, c ∉ part) (s : Text) :
    occurrences part (s ++ b) = occurrences part s := by
  induction s using (takes_literal hne).induction with
  | nil =>
    obtain ⟨d, rest, rfl⟩ := List.exists_cons_of_ne_nil hne
    exact occurrences_of_notMem (fun hd => hb d hd List.mem_cons_self) rest
  | kept c s hr ih =>
    have hnone : literal part (c :: (s ++ b)) = none := by
      refine literal_eq_none_iff.2 fun hfront => literal_eq_none_iff.1 hr ?_
      rcases List.prefix_or_prefix_of_prefix hfront (List.prefix_append (c :: s) b) with hwhole | ⟨x, hx⟩
      · exact hwhole
      · obtain ⟨y, hy⟩ := hfront
        have hrest : (c :: s) ++ (x ++ y) = (c :: s) ++ b := by
          rw [← List.append_assoc, hx, hy]
          rfl
        have hnil : x = [] := List.eq_nil_iff_forall_not_mem.2 fun d hd =>
          hb d (List.append_cancel_left hrest ▸ List.mem_append_left y hd) (hx ▸ List.mem_append_right (c :: s) hd)
        rw [← hx, hnil, List.append_nil]
    rw [occurrences, List.cons_append, found_kept hnone, occurrences, found_kept hr]
    exact ih
  | found u s a hu hr ih =>
    obtain ⟨v, hv, he⟩ := Option.map_eq_some_iff.1 hr
    obtain rfl : v = s := congrArg Prod.snd he
    obtain rfl : u = part := List.append_cancel_right (eq_append_of_after? hv)
    have hlonger : literal u (u ++ (v ++ b)) = some ((), v ++ b) := by rw [literal, after?_append]; rfl
    rw [occurrences, List.append_assoc, found_front hu hlonger, occurrences, found_front hu hr]
    exact congrArg Nat.succ ih

/-- Blanks around a text hold no occurrence of a part without blanks. -/
theorem occurrences_strip (hne : part ≠ []) (hpart : ∀ c ∈ part, DocPages.isBlank c = false) (t : Text) :
    occurrences part (strip t) = occurrences part t := by
  have hapart {c : Char} (hc : DocPages.isBlank c = true) : c ∉ part := fun hmem => by
    rw [hpart c hmem] at hc
    cases hc
  obtain ⟨a, b, ha, hb, hfront⟩ := exists_trim DocPages.isBlank t
  obtain ⟨c, rest, rfl⟩ := List.exists_cons_of_ne_nil hne
  have hc : c ∉ a := fun hmem => hapart (ha c hmem) List.mem_cons_self
  conv_rhs => rw [hfront]
  rw [occurrences_append hne (severed_of_notMem hc rest), occurrences_of_notMem hc, Nat.zero_add,
    occurrences_behind hne fun d hd => hapart (hb d hd)]
  rfl

end

end DocPages.Text
