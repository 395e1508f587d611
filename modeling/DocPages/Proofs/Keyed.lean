import DocPages.Keyed
import Mathlib.Data.List.Induction
import Mathlib.Data.List.Nodup

/-!
# Writing by name

What writing to a keyed list leaves under each name, and in which order the names stand. Writing entries one
after the other and writing the list that they make up come to the same, so lists that are united step by step
may be united at once. Entries may also be put in groups by a key, which changes nothing but their order.
-/

namespace DocPages.Keyed

variable {α : Type} {es ns : Keyed α} {j k : Text}

@[simp] theorem get?_nil (k : Text) : get? ([] : Keyed α) k = none := rfl

theorem get?_cons (k' k : Text) (v : α) (es : Keyed α) :
    get? ((k', v) :: es) k = if k = k' then some v else get? es k := by
  unfold get?
  rw [List.lookup_cons]
  by_cases h : k = k'
  · simp [h]
  · simp [h, beq_false_of_ne h]

theorem get?_append (es ns : Keyed α) (k : Text) : get? (es ++ ns) k = (get? es k).or (get? ns k) := by
  induction es with
  | nil => rfl
  | cons e es ih =>
    obtain ⟨k', v⟩ := e
    rw [List.cons_append, get?_cons, get?_cons]
    split
    · rfl
    · exact ih

theorem get?_eq_none_iff : get? es k = none ↔ k ∉ es.map Prod.fst := by
  induction es with
  | nil => simp
  | cons e es ih =>
    obtain ⟨k', v⟩ := e
    rw [get?_cons, List.map_cons, List.mem_cons, not_or]
    by_cases h : k = k'
    · simp [h]
    · simpa [h] using ih

theorem mem_of_get? {v : α} (h : get? es k = some v) : (k, v) ∈ es := by
  induction es with
  | nil => cases h
  | cons e es ih =>
    obtain ⟨k', w⟩ := e
    rw [get?_cons] at h
    split at h
    · next hk =>
      obtain rfl := Option.some.inj h
      exact hk ▸ List.mem_cons_self
    · exact List.mem_cons_of_mem _ (ih h)

theorem get?_of_mem {v : α} (hes : (es.map Prod.fst).Nodup) (h : (k, v) ∈ es) : get? es k = some v := by
  induction es with
  | nil => cases h
  | cons e es ih =>
    obtain ⟨k', w⟩ := e
    rw [List.map_cons, List.nodup_cons] at hes
    rw [get?_cons]
    rcases List.mem_cons.1 h with heq | hmem
    · obtain ⟨rfl, rfl⟩ := Prod.mk.inj heq
      rw [if_pos rfl]
    · have hk : k ∈ es.map Prod.fst := List.mem_map_of_mem hmem
      have hne : k ≠ k' := fun heq => hes.1 (heq ▸ hk)
      rw [if_neg hne, ih hes.2 hmem]

/-- The order of entries with different names does not matter. -/
theorem get?_of_perm (hes : (es.map Prod.fst).Nodup) (h : es.Perm ns) (k : Text) : get? es k = get? ns k := by
  have hns : (ns.map Prod.fst).Nodup := (h.map Prod.fst).nodup_iff.1 hes
  cases hget : get? ns k with
  | none =>
    refine get?_eq_none_iff.2 fun hmem => get?_eq_none_iff.1 hget ?_
    exact (h.map Prod.fst).mem_iff.1 hmem
  | some v => exact get?_of_mem hes (h.mem_iff.2 (mem_of_get? hget))

/-! ## One entry -/

theorem get?_put (k : Text) (v : α) (es : Keyed α) (j : Text) :
    get? (put k v es) j = if j = k then some v else get? es j := by
  by_cases h : j = k
  · rw [if_pos h, h, get?_put_self]
  · rw [if_neg h, get?_put_of_ne v es h]

theorem put_of_notMem (h : k ∉ es.map Prod.fst) (v : α) : put k v es = es ++ [(k, v)] := by
  induction es with
  | nil => rfl
  | cons e es ih =>
    obtain ⟨k', w⟩ := e
    obtain ⟨hk, hes⟩ : k ≠ k' ∧ k ∉ es.map Prod.fst := by simpa using h
    rw [put, if_neg (Ne.symm hk), ih hes]
    rfl

theorem map_fst_put_of_mem (h : k ∈ es.map Prod.fst) (v : α) : (put k v es).map Prod.fst = es.map Prod.fst := by
  induction es with
  | nil => cases h
  | cons e es ih =>
    obtain ⟨k', w⟩ := e
    by_cases hk : k' = k
    · simp [put, hk]
    · have hmem : k ∈ es.map Prod.fst := by
        rcases List.mem_cons.1 h with heq | hmem
        · exact absurd heq.symm hk
        · exact hmem
      rw [put, if_neg hk, List.map_cons, ih hmem, List.map_cons]

theorem mem_map_fst_put (k : Text) (v : α) (es : Keyed α) (j : Text) :
    j ∈ (put k v es).map Prod.fst ↔ j = k ∨ j ∈ es.map Prod.fst := by
  by_cases h : k ∈ es.map Prod.fst
  · rw [map_fst_put_of_mem h]
    exact ⟨.inr, fun hj => hj.elim (fun heq => heq ▸ h) id⟩
  · simp [put_of_notMem h, or_comm]

theorem nodup_put (hes : (es.map Prod.fst).Nodup) (k : Text) (v : α) : ((put k v es).map Prod.fst).Nodup := by
  by_cases h : k ∈ es.map Prod.fst
  · rwa [map_fst_put_of_mem h]
  · rw [put_of_notMem h, List.map_append]
    exact hes.append (List.nodup_singleton k) (by simpa using h)

theorem mem_put {e : Text × α} {v : α} (h : e ∈ put k v es) : e = (k, v) ∨ e ∈ es := by
  induction es with
  | nil => exact .inl (List.mem_singleton.1 h)
  | cons e' es ih =>
    obtain ⟨k', w⟩ := e'
    rw [put] at h
    split at h
    · exact (List.mem_cons.1 h).imp_right (List.mem_cons_of_mem _)
    · rcases List.mem_cons.1 h with heq | hmem
      · exact .inr (heq ▸ List.mem_cons_self)
      · exact (ih hmem).imp_right (List.mem_cons_of_mem _)

/-- A name keeps its place, so two entries with different names may be written in any order if one is there. -/
theorem put_comm (hk : k ∈ es.map Prod.fst) (hne : k ≠ j) (v w : α) :
    put k v (put j w es) = put j w (put k v es) := by
  induction es with
  | nil => cases hk
  | cons e es ih =>
    obtain ⟨k', u⟩ := e
    by_cases hk' : k' = k
    · have hj : k' ≠ j := hk' ▸ hne
      simp [put, hk', hne]
    · have hmem : k ∈ es.map Prod.fst := by
        rcases List.mem_cons.1 hk with heq | hmem
        · exact absurd heq.symm hk'
        · exact hmem
      by_cases hj : k' = j
      · simp [put, hj, hne.symm]
      · simp [put, hk', hj, ih hmem]

theorem put_put_self (k : Text) (v w : α) (es : Keyed α) : put k v (put k w es) = put k v es := by
  induction es with
  | nil => simp [put]
  | cons e es ih =>
    obtain ⟨k', u⟩ := e
    by_cases h : k' = k
    · simp [put, h]
    · simp [put, h, ih]

/-! ## Several entries -/

@[simp] theorem update_nil (es : Keyed α) : update es [] = es := rfl

@[simp] theorem update_cons (es : Keyed α) (e : Text × α) (ns : Keyed α) :
    update es (e :: ns) = update (put e.1 e.2 es) ns := rfl

theorem update_append (es ns ns' : Keyed α) : update es (ns ++ ns') = update (update es ns) ns' :=
  List.foldl_append

/-- Lists that are written one after the other may be put together first. -/
theorem foldl_update {β : Type} (f : β → Keyed α) (xs : List β) (es : Keyed α) :
    xs.foldl (fun acc x => update acc (f x)) es = update es (xs.flatMap f) := by
  induction xs generalizing es with
  | nil => rfl
  | cons x xs ih => rw [List.foldl_cons, ih, List.flatMap_cons, update_append]

theorem nodup_update (hes : (es.map Prod.fst).Nodup) (ns : Keyed α) : ((update es ns).map Prod.fst).Nodup := by
  induction ns generalizing es with
  | nil => exact hes
  | cons e ns ih => exact ih (nodup_put hes e.1 e.2)

theorem nodup_ofList (es : Keyed α) : ((ofList es).map Prod.fst).Nodup := @nodup_update α [] List.nodup_nil es

theorem mem_update {e : Text × α} (h : e ∈ update es ns) : e ∈ es ∨ e ∈ ns := by
  induction ns generalizing es with
  | nil => exact .inl h
  | cons n ns ih =>
    rcases ih h with hput | hns
    · rcases mem_put hput with heq | hes
      · exact .inr (heq ▸ List.mem_cons_self)
      · exact .inl hes
    · exact .inr (List.mem_cons_of_mem _ hns)

/-- The value that the last entry of a name has. -/
def last? (es : Keyed α) (k : Text) : Option α := get? es.reverse k

theorem last?_append (es ns : Keyed α) (k : Text) : last? (es ++ ns) k = (last? ns k).or (last? es k) := by
  rw [last?, List.reverse_append, get?_append]
  rfl

theorem last?_flatMap {β : Type} {f : β → Keyed α} {g : β → Option α} {xs : List β}
    (h : ∀ x ∈ xs, last? (f x) k = g x) : last? (xs.flatMap f) k = xs.reverse.findSome? g := by
  induction xs with
  | nil => rfl
  | cons x xs ih =>
    rw [List.flatMap_cons, last?_append, ih fun y hy => h y (List.mem_cons_of_mem x hy), h x List.mem_cons_self,
      List.reverse_cons, List.findSome?_append, List.findSome?_singleton]

theorem last?_of_nodup (hes : (es.map Prod.fst).Nodup) (k : Text) : last? es k = get? es k := by
  have hrev : (es.reverse.map Prod.fst).Nodup := by rwa [List.map_reverse, List.nodup_reverse]
  cases h : get? es k with
  | none => rw [last?, get?_eq_none_iff, List.map_reverse, List.mem_reverse, ← get?_eq_none_iff, h]
  | some v => exact get?_of_mem hrev (List.mem_reverse.2 (mem_of_get? h))

/-- The last entry of a name is the one that counts. -/
theorem get?_update (es ns : Keyed α) (k : Text) : get? (update es ns) k = (last? ns k).or (get? es k) := by
  induction ns generalizing es with
  | nil => rfl
  | cons e ns ih =>
    have hcons : last? (e :: ns) k = (last? ns k).or (last? [e] k) := last?_append [e] ns k
    have hone : get? (put e.1 e.2 es) k = (last? [e] k).or (get? es k) := by
      rw [get?_put, last?, List.reverse_singleton, get?_cons]
      split <;> rfl
    rw [update_cons, ih, hone, hcons, Option.or_assoc]

theorem get?_ofList (es : Keyed α) (k : Text) : get? (ofList es) k = last? es k := by
  rw [ofList, get?_update, get?_nil, Option.or_none]

theorem mem_map_fst_update (es ns : Keyed α) (k : Text) :
    k ∈ (update es ns).map Prod.fst ↔ k ∈ es.map Prod.fst ∨ k ∈ ns.map Prod.fst := by
  induction ns generalizing es with
  | nil => simp
  | cons e ns ih =>
    rw [update_cons, ih, mem_map_fst_put, List.map_cons, List.mem_cons, or_left_comm, ← or_assoc, or_comm]

theorem mem_map_fst_ofList (es : Keyed α) (k : Text) : k ∈ (ofList es).map Prod.fst ↔ k ∈ es.map Prod.fst := by
  rw [ofList, mem_map_fst_update]
  simp

/-- The names stand in the order in which they first appear. -/
theorem map_fst_ofList (es : Keyed α) : (ofList es).map Prod.fst = (es.map Prod.fst).eraseDups := by
  induction es using List.reverseRecOn with
  | nil => rfl
  | append_singleton es e ih =>
    have hlast : ofList (es ++ [e]) = put e.1 e.2 (ofList es) := update_append [] es [e]
    rw [hlast, List.map_append, List.eraseDups_append, ← ih]
    by_cases h : e.1 ∈ es.map Prod.fst
    · have hnone : ([e].map Prod.fst).removeAll (es.map Prod.fst) = [] := by simpa [List.removeAll] using h
      rw [map_fst_put_of_mem ((mem_map_fst_ofList es e.1).2 h), hnone]
      exact (List.append_nil _).symm
    · rw [put_of_notMem (mt (mem_map_fst_ofList es e.1).1 h), List.map_append]
      have hkept : ([e].map Prod.fst).removeAll (es.map Prod.fst) = [e.1] := by simpa [List.removeAll] using h
      rw [hkept]
      rfl

theorem update_put_comm (hes : k ∈ es.map Prod.fst) (hns : k ∉ ns.map Prod.fst) (v : α) :
    update (put k v es) ns = put k v (update es ns) := by
  induction ns generalizing es with
  | nil => rfl
  | cons e ns ih =>
    obtain ⟨hne, hmem⟩ : k ≠ e.1 ∧ k ∉ ns.map Prod.fst := by simpa using hns
    have hes' : k ∈ (put e.1 e.2 es).map Prod.fst := (mem_map_fst_put _ _ _ _).2 (.inr hes)
    rw [update_cons, update_cons, ← put_comm hes hne, ih hes' hmem]

theorem update_put (hns : (ns.map Prod.fst).Nodup) (es : Keyed α) (k : Text) (v : α) :
    update es (put k v ns) = put k v (update es ns) := by
  induction ns generalizing es with
  | nil => rfl
  | cons n ns ih =>
    obtain ⟨k', w⟩ := n
    rw [List.map_cons, List.nodup_cons] at hns
    by_cases h : k' = k
    · have hmem : k ∈ (put k w es).map Prod.fst := (mem_map_fst_put _ _ _ _).2 (.inl rfl)
      have hstep : put k v ((k', w) :: ns) = (k, v) :: ns := by rw [put, if_pos h]
      rw [hstep, update_cons, update_cons, h, ← update_put_comm hmem (h ▸ hns.1), put_put_self]
    · have hstep : put k v ((k', w) :: ns) = (k', w) :: put k v ns := by rw [put, if_neg h]
      rw [hstep, update_cons, update_cons, ih hns.2]

/-- Entries may be made up to a list first. -/
theorem update_ofList (es ns : Keyed α) : update es (ofList ns) = update es ns := by
  induction ns using List.reverseRecOn with
  | nil => rfl
  | append_singleton ns e ih =>
    have hlast : ofList (ns ++ [e]) = put e.1 e.2 (ofList ns) := update_append [] ns [e]
    rw [hlast, update_put (nodup_ofList ns), ih, update_append]
    rfl

theorem update_of_nodup (h : ((es ++ ns).map Prod.fst).Nodup) : update es ns = es ++ ns := by
  induction ns generalizing es with
  | nil => simp
  | cons e ns ih =>
    obtain ⟨k, v⟩ := e
    have hk : k ∉ es.map Prod.fst := by
      rw [List.map_append, List.map_cons] at h
      exact fun hmem => (List.nodup_append.1 h).2.2 k hmem k (by simp) rfl
    have hnext : ((es ++ [(k, v)] ++ ns).map Prod.fst).Nodup := by simpa using h
    rw [update_cons, put_of_notMem hk, ih hnext]
    simp

theorem ofList_of_nodup (h : (es.map Prod.fst).Nodup) : ofList es = es :=
  @update_of_nodup α [] es h

/-! ## Leaving out names -/

theorem get?_without (keys : List Text) (es : Keyed α) (k : Text) :
    get? (without keys es) k = if k ∈ keys then none else get? es k := by
  induction es with
  | nil => simp [without]
  | cons e es ih =>
    obtain ⟨k', v⟩ := e
    have hcons : without keys ((k', v) :: es) =
        if k' ∈ keys then without keys es else (k', v) :: without keys es := by
      by_cases h : k' ∈ keys <;> simp [without, h]
    rw [hcons]
    by_cases h : k' ∈ keys
    · rw [if_pos h, ih, get?_cons]
      split
      · rfl
      · next hk =>
        have hne : k ≠ k' := fun heq => hk (heq ▸ h)
        rw [if_neg hne]
    · rw [if_neg h, get?_cons, get?_cons, ih]
      by_cases hk : k = k'
      · rw [if_pos hk, if_pos hk, if_neg (hk ▸ h)]
      · rw [if_neg hk, if_neg hk]

theorem without_sublist (keys : List Text) (es : Keyed α) : (without keys es).Sublist es := List.filter_sublist

theorem nodup_without (hes : (es.map Prod.fst).Nodup) (keys : List Text) : ((without keys es).map Prod.fst).Nodup :=
  hes.sublist ((without_sublist keys es).map Prod.fst)

/-! ## In groups -/

/-- Groups of different keys, put behind each other, hold every entry that has one of the keys once. -/
theorem perm_groups {κ : Type} [DecidableEq κ] {ks : List κ} (hks : ks.Nodup) (key : α → Option κ) (as : List α) :
    (ks.flatMap fun k => as.filter fun a => key a == some k).Perm
      (as.filter fun a => ks.any fun k => key a == some k) := by
  induction ks with
  | nil => simp
  | cons k ks ih =>
    obtain ⟨hk, hks⟩ := List.nodup_cons.1 hks
    have hother (a : α) (ha : (key a == some k) = true) : (ks.any fun k => key a == some k) = false := by
      refine List.any_eq_false.2 fun j hj heq => ?_
      obtain rfl := Option.some.inj ((beq_iff_eq.1 ha).symm.trans (beq_iff_eq.1 heq))
      exact hk hj
    have hself : as.filter (fun a => key a == some k) =
        (as.filter fun a => (k :: ks).any fun k => key a == some k).filter fun a => key a == some k := by
      rw [List.filter_filter]
      refine List.filter_congr fun a _ => ?_
      rw [List.any_cons]
      cases key a == some k <;> rfl
    have hrest : as.filter (fun a => ks.any fun k => key a == some k) =
        (as.filter fun a => (k :: ks).any fun k => key a == some k).filter fun a => !(key a == some k) := by
      rw [List.filter_filter]
      refine List.filter_congr fun a _ => ?_
      rw [List.any_cons]
      cases ha : key a == some k with
      | false => rfl
      | true => exact hother a ha
    rw [List.flatMap_cons]
    refine ((ih hks).append_left _).trans ?_
    rw [hself, hrest]
    exact List.filter_append_perm _ _

end DocPages.Keyed
