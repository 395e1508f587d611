import DocPages.Keyed
import Mathlib.Data.Char
import Mathlib.Data.List.Lex

/-!
# The order of names

Names are compared code point by code point, which is the order of lists of characters. Sorting entries by name loses
and doubles none, and entries with different names have one order only, so it does not matter in which order they were.
-/

namespace DocPages.Keyed

variable {α : Type} {es ns : Keyed α} {e : Text × α}

theorem before_iff_lt {s t : Text} : Text.before s t = true ↔ s < t := by
  induction s generalizing t with
  | nil => cases t <;> simp [Text.before]
  | cons a s ih =>
    cases t with
    | nil => simp [Text.before]
    | cons b t =>
      rw [Text.before, List.cons_lt_cons_iff, Bool.or_eq_true, Bool.and_eq_true, ih, decide_eq_true_iff, beq_iff_eq,
        Char.lt_def, Char.ext_iff]

theorem perm_insertByName (e : Text × α) (es : Keyed α) : (insertByName e es).Perm (e :: es) := by
  induction es with
  | nil => exact .refl _
  | cons e' es ih =>
    rw [insertByName]
    split
    · exact (ih.cons e').trans (.swap e e' es)
    · exact .refl _

theorem perm_sorted (es : Keyed α) : (sorted es).Perm es := by
  induction es with
  | nil => exact .nil
  | cons e es ih => exact (perm_insertByName e (sorted es)).trans (ih.cons e)

theorem mem_sorted : e ∈ sorted es ↔ e ∈ es := (perm_sorted es).mem_iff

/-- Entries in strictly ascending order of their names. -/
def Ascending (es : Keyed α) : Prop := es.Pairwise fun e e' => e.1 < e'.1

theorem ascending_insertByName (hes : Ascending es) (he : e.1 ∉ es.map Prod.fst) : Ascending (insertByName e es) := by
  induction es with
  | nil => exact List.pairwise_singleton _ e
  | cons e' es ih =>
    obtain ⟨hfirst, hes⟩ := List.pairwise_cons.1 hes
    obtain ⟨hne, he⟩ := not_or.1 (List.mem_cons.not.1 he)
    rw [insertByName]
    split
    · next hbefore =>
      refine List.pairwise_cons.2 ⟨fun m hm => ?_, ih hes he⟩
      rcases List.mem_cons.1 ((perm_insertByName e es).mem_iff.1 hm) with rfl | hm
      · exact before_iff_lt.1 hbefore
      · exact hfirst m hm
    · next hbefore =>
      have hlt : e.1 < e'.1 := (lt_or_gt_of_ne hne).resolve_right fun h => hbefore (before_iff_lt.2 h)
      refine List.pairwise_cons.2 ⟨fun m hm => ?_, List.pairwise_cons.2 ⟨hfirst, hes⟩⟩
      rcases List.mem_cons.1 hm with rfl | hm
      · exact hlt
      · exact lt_trans hlt (hfirst m hm)

theorem ascending_sorted (hes : (es.map Prod.fst).Nodup) : Ascending (sorted es) := by
  induction es with
  | nil => exact .nil
  | cons e es ih =>
    obtain ⟨he, hes⟩ := List.nodup_cons.1 hes
    exact ascending_insertByName (ih hes) fun hmem => he (((perm_sorted es).map Prod.fst).mem_iff.1 hmem)

/-- The order of different names does not depend on the order in which they are given. -/
theorem sorted_eq_of_perm (hperm : es.Perm ns) (hes : (es.map Prod.fst).Nodup) : sorted es = sorted ns := by
  have hns : (ns.map Prod.fst).Nodup := (hperm.map Prod.fst).nodup_iff.1 hes
  have hsorted : (sorted es).Pairwise fun e e' => e.1 < e'.1 := ascending_sorted hes
  have hall : (sorted es).Perm (sorted ns) := ((perm_sorted es).trans hperm).trans (perm_sorted ns).symm
  exact List.Perm.eq_of_pairwise (fun _ _ _ _ hlt hgt => absurd hgt (lt_asymm hlt)) hsorted (ascending_sorted hns) hall

end DocPages.Keyed
