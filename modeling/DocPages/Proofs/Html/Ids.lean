import DocPages.Html.Ids
import DocPages.Proofs.Text.Numeral
import DocPages.Proofs.Text.Search

/-!
# Ids drawn one after the other

An id is read from its end: no number holds a hyphen, so the last hyphen of an id ends its kind, whatever the kind
itself holds. Ids are equal only if their kinds and their numbers are. The number of a kind grows with each id of that
kind and with no other, so no id is drawn twice, and the ids of each kind are counted from one on.
-/

namespace DocPages.IdSupply

variable {kind other : Text} {m n : Nat}

/-! ## Reading an id -/

theorem hyphen_notMem_ofNat (n : Nat) : '-' ∉ Text.ofNat n := fun h =>
  absurd (Text.isDigit_of_mem_ofNat h) (by decide)

/-- The last hyphen of an id ends its kind. -/
theorem id_inj : id kind m = id other n ↔ kind = other ∧ m = n := by
  refine ⟨fun h => ?_, fun ⟨hkind, hnumber⟩ => by rw [hkind, hnumber]⟩
  have hfromEnd : (Text.ofNat m).reverse ++ '-' :: kind.reverse = (Text.ofNat n).reverse ++ '-' :: other.reverse := by
    simpa [id] using congrArg List.reverse h
  have hm : '-' ∉ (Text.ofNat m).reverse := by simpa using hyphen_notMem_ofNat m
  have hn : '-' ∉ (Text.ofNat n).reverse := by simpa using hyphen_notMem_ofNat n
  obtain ⟨hnumber, hkind⟩ := eq_of_append_cons hm hn hfromEnd
  exact ⟨List.reverse_inj.1 hkind, Text.ofNat_injective (List.reverse_inj.1 hnumber)⟩

/-! ## One draw -/

theorem count_draw_of_ne (h : other ≠ kind) (s : IdSupply) : (draw kind s).2.count other = s.count other := by
  simp only [draw, count, Keyed.get?_put_of_ne _ _ h]

/-- A draw counts for its own kind and for no other. -/
theorem count_draw (kind other : Text) (s : IdSupply) :
    (draw kind s).2.count other = s.count other + [kind].count other := by
  by_cases h : other = kind
  · subst h
    rw [count_draw_self, List.count_singleton_self]
  · rw [count_draw_of_ne h, List.count_eq_zero_of_not_mem (by simpa using h)]
    rfl

/-! ## Any number of draws -/

/-- The ids for a row of requests, each of which names a kind. -/
def drawAll (kinds : List Text) : StateM IdSupply (List Text) := kinds.mapM draw

theorem drawAll_cons (kind : Text) (kinds : List Text) (s : IdSupply) :
    ((drawAll (kind :: kinds)).run s).1 =
      id kind (s.count kind + 1) :: ((drawAll kinds).run (draw kind s).2).1 := by
  rw [drawAll, List.mapM_cons, StateT.run_bind]
  rfl

/-- Each request is answered by its kind and one more than the number of earlier requests for that kind. -/
theorem drawAll_eq_mapIdx (kinds : List Text) (s : IdSupply) :
    ((drawAll kinds).run s).1 =
      kinds.mapIdx fun i kind => id kind (s.count kind + (kinds.take i).count kind + 1) := by
  induction kinds generalizing s with
  | nil => rfl
  | cons kind kinds ih =>
    have hearlier (i : Nat) (other : Text) : (draw kind s).2.count other + (kinds.take i).count other =
        s.count other + ((kind :: kinds).take (i + 1)).count other := by
      have hsplit : (kind :: kinds.take i).count other = [kind].count other + (kinds.take i).count other := by
        rw [← List.count_append, List.singleton_append]
      rw [count_draw, List.take_succ_cons, hsplit, Nat.add_assoc]
    rw [drawAll_cons, ih, List.mapIdx_cons]
    simp only [hearlier]
    rfl

/-- What is drawn has not been drawn before. -/
theorem exists_of_mem_drawAll {kinds : List Text} {s : IdSupply} {t : Text} (h : t ∈ ((drawAll kinds).run s).1) :
    ∃ kind n, s.count kind < n ∧ t = id kind n := by
  rw [drawAll_eq_mapIdx, List.mem_mapIdx] at h
  obtain ⟨i, hi, rfl⟩ := h
  exact ⟨kinds[i], _, by omega, rfl⟩

theorem nodup_drawAll (kinds : List Text) (s : IdSupply) : ((drawAll kinds).run s).1.Nodup := by
  induction kinds generalizing s with
  | nil => exact List.nodup_nil
  | cons kind kinds ih =>
    rw [drawAll_cons]
    refine List.nodup_cons.2 ⟨fun hmem => ?_, ih (draw kind s).2⟩
    obtain ⟨other, n, hlt, heq⟩ := exists_of_mem_drawAll hmem
    obtain ⟨rfl, rfl⟩ := id_inj.1 heq
    rw [count_draw_self] at hlt
    exact Nat.lt_irrefl _ hlt

/-- The ids from one supply are pairwise distinct, and a request for a kind is answered by the kind, a hyphen and the
number of requests for it so far, whatever else has been asked for in between. -/
theorem drawAll_distinct_numbered (kinds : List Text) :
    let ids := ((drawAll kinds).run fresh).1
    ids.Nodup ∧ ids = kinds.mapIdx fun i kind => kind ++ '-' :: Text.ofNat ((kinds.take i).count kind + 1) := by
  refine ⟨nodup_drawAll kinds fresh, ?_⟩
  rw [drawAll_eq_mapIdx]
  simp only [count_fresh, Nat.zero_add]
  rfl

example : ((drawAll ["a", "a-1", "a"]).run fresh).1 = ["a-1", "a-1-1", "a-2"] := by decide

end DocPages.IdSupply
