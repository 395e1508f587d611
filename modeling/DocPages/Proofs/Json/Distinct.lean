import DocPages.Proofs.Json.RoundTrip

/-!
# Values that are equal

Equality of values relates each value to itself, in both directions and across a third one: numbers are compared
by the rational they stand for, and objects by what they have under each name. A list of distinct values holds no
two that are equal and one for every value that went into it.
-/

namespace DocPages

namespace Double

/-! ## Numbers by their value -/

/-- The rational that a finite double stands for. -/
def value? : Double → Option ℚ
  | .finite neg m e => some ((if neg then -(m : ℚ) else m) * 2 ^ e)
  | _ => none

theorem near_self (m : Nat) (e : Int) : Near m e (m * 2 ^ e) := by
  have hp := two_zpow_pos e
  have hgap : 0 < gap m e := by
    unfold gap
    split <;> norm_num
  have hlow : ((m : ℚ) - gap m e) * 2 ^ e < m * 2 ^ e := mul_lt_mul_of_pos_right (by linarith) hp
  have hhigh : (m : ℚ) * 2 ^ e < (m + 1 / 2) * 2 ^ e := mul_lt_mul_of_pos_right (by linarith) hp
  unfold Near
  split
  · exact ⟨hlow.le, hhigh.le⟩
  · exact ⟨hlow, hhigh⟩

/-- A number other than zero has one magnitude and exponent: both are what its ratio is read as. -/
theorem Normal.eq_of_mul {m m' : Nat} {e e' : Int} (h : Normal m e) (h' : Normal m' e') (hm : 0 < m) (hm' : 0 < m')
    (heq : (m : ℚ) * 2 ^ e = m' * 2 ^ e') : m = m' ∧ e = e' := by
  have hratio : (m : ℚ) * 2 ^ e = ((m * 2 ^ e.toNat : ℕ) : ℚ) / (2 ^ (-e).toNat : ℕ) := by
    rw [zpow_eq_div 2 e]
    push_cast
    ring
  have hnum : 0 < m * 2 ^ e.toNat := by positivity
  have hden : 0 < 2 ^ (-e).toNat := by positivity
  have hread := ofRatio_of_near h hnum hden (hratio ▸ near_self m e) false
  have hread' := ofRatio_of_near h' hnum hden (hratio ▸ heq ▸ near_self m' e') false
  rw [hread] at hread'
  cases hread'
  exact ⟨rfl, rfl⟩

theorem isInt_iff (x : Double) (n : Int) : x.isInt n = true ↔ x.value? = some (n : ℚ) := by
  cases x with
  | finite neg m e =>
    have hpos : (0 : ℚ) < 2 ^ (-e).toNat := by positivity
    rw [value?, Option.some_inj, zpow_eq_div 2 e, ← mul_div_assoc, div_eq_iff hpos.ne', isInt, beq_iff_eq,
      powTwo_eq, powTwo_eq]
    cases neg <;> norm_cast
  | _ => simp [isInt, value?]

theorem value?_eq_zero_iff (x : Double) : x.value? = some 0 ↔ x.isZero = true := by
  cases x with
  | finite neg m e =>
    have hpos := (two_zpow_pos e).ne'
    cases neg <;> simp [value?, isZero, hpos]
  | _ => simp [isZero, value?]

theorem finite_eq_of_value? {neg neg' : Bool} {m m' : Nat} {e e' : Int} (h : Normal m e) (h' : Normal m' e')
    (heq : (finite neg m e).value? = (finite neg' m' e').value?) (hne : (finite neg m e).value? ≠ some 0) :
    finite neg m e = finite neg' m' e' := by
  have hp := two_zpow_pos e
  have hp' := two_zpow_pos e'
  have hm : 0 < m := by
    refine Nat.pos_of_ne_zero fun hzero => hne ((value?_eq_zero_iff _).2 ?_)
    simp [isZero, hzero]
  have hm' : 0 < m' := by
    refine Nat.pos_of_ne_zero fun hzero => hne (heq.trans ((value?_eq_zero_iff _).2 ?_))
    simp [isZero, hzero]
  have hv : (0 : ℚ) < m * 2 ^ e := by positivity
  have hv' : (0 : ℚ) < m' * 2 ^ e' := by positivity
  have heq : (if neg then -(m : ℚ) else m) * 2 ^ e = (if neg' then -(m' : ℚ) else m') * 2 ^ e' := Option.some.inj heq
  have hsame (hmul : (m : ℚ) * 2 ^ e = m' * 2 ^ e') : m = m' ∧ e = e' := h.eq_of_mul h' hm hm' hmul
  cases neg <;> cases neg' <;>
    simp only [Bool.false_eq_true, if_false, if_true, neg_mul, neg_inj] at heq
  · obtain ⟨rfl, rfl⟩ := hsame heq
    rfl
  · linarith
  · linarith
  · obtain ⟨rfl, rfl⟩ := hsame heq
    rfl

/-- Doubles in range are equal if they stand for the same rational, or are the same and stand for none. -/
theorem same_iff {x y : Double} (hx : x.Proper) (hy : y.Proper) :
    x.same y = true ↔ x.value? = y.value? ∧ (x.value? = none → x = y) := by
  rw [same, Bool.or_eq_true, beq_iff_eq, Bool.and_eq_true, ← value?_eq_zero_iff, ← value?_eq_zero_iff]
  constructor
  · rintro (rfl | ⟨hx, hy⟩)
    · exact ⟨rfl, fun _ => rfl⟩
    · exact ⟨hx.trans hy.symm, fun h => by simp [h] at hx⟩
  · rintro ⟨hvalue, hnone⟩
    cases x with
    | finite neg m e =>
      cases y with
      | finite neg' m' e' =>
        by_cases hzero : (finite neg m e).value? = some 0
        · exact .inr ⟨hzero, hvalue ▸ hzero⟩
        · exact .inl (finite_eq_of_value? hx hy hvalue hzero)
      | _ => cases hvalue
    | _ => exact .inl (hnone rfl)

end Double

namespace Json

/-- A number by its value; infinities and what is no number stand for themselves. -/
def numberValue : Int ⊕ Double → ℚ ⊕ Double
  | .inl n => .inl n
  | .inr x => match x.value? with
    | some q => .inl q
    | none => .inr x

theorem sameNumber_iff {x y : Int ⊕ Double} (hx : ∀ d, x = .inr d → d.Proper) (hy : ∀ d, y = .inr d → d.Proper) :
    sameNumber x y = true ↔ numberValue x = numberValue y := by
  cases x with
  | inl m => cases y with
    | inl n => simp [sameNumber, numberValue]
    | inr y =>
      rw [sameNumber, Double.isInt_iff, numberValue, numberValue]
      cases h : y.value? with
      | none => simp
      | some q => simpa using eq_comm
  | inr x => cases y with
    | inl n => cases h : x.value? <;> simp [sameNumber, numberValue, Double.isInt_iff, h]
    | inr y =>
      rw [sameNumber, Double.same_iff (hx x rfl) (hy y rfl), numberValue, numberValue]
      cases h : x.value? <;> cases h' : y.value? <;> simp

theorem proper_of_number? {j : Json} (h : j.Proper) {x : Int ⊕ Double} (hx : number? j = some x) (d : Double)
    (hd : x = .inr d) : d.Proper := by
  subst hd
  cases j with
  | double x =>
    obtain rfl := Sum.inr.inj (Option.some.inj hx)
    exact h
  | bool b => cases hx
  | int n => cases hx
  | _ => cases hx

/-! ## Equality by shape -/

theorem same_null_iff {b : Json} : same .null b = true ↔ b = .null := by
  cases b <;> simp [same, number?]

theorem same_str_iff {s : Text} {b : Json} : same (.str s) b = true ↔ b = .str s := by
  cases b with
  | str t => simpa [same] using eq_comm
  | _ => simp [same, number?]

theorem sameItems_iff {xs ys : List Json} : sameItems xs ys = true ↔ xs.length = ys.length ∧
    ∀ i (h : i < xs.length) (h' : i < ys.length), same xs[i] ys[i] = true := by
  have hpairs : sameItems xs ys = true ↔ List.Forall₂ (fun x y => same x y = true) xs ys := by
    induction xs generalizing ys with
    | nil => cases ys <;> simp [sameItems]
    | cons x xs ih => cases ys <;> simp [sameItems, ih]
  rw [hpairs, List.forall₂_iff_get]
  rfl

theorem same_arr_iff {xs : List Json} {b : Json} : same (.arr xs) b = true ↔
    ∃ ys, b = .arr ys ∧ xs.length = ys.length ∧
      ∀ i (h : i < xs.length) (h' : i < ys.length), same xs[i] ys[i] = true := by
  cases b <;> simp [same, number?, sameItems_iff]

theorem sameMembers_iff {ms ns : Members} :
    sameMembers ms ns = true ↔ ∀ m ∈ ms, ∃ w, Keyed.get? ns m.1 = some w ∧ same m.2 w = true := by
  induction ms with
  | nil => simp [sameMembers]
  | cons m ms ih =>
    obtain ⟨k, v⟩ := m
    rw [sameMembers, Bool.and_eq_true, ih, List.forall_mem_cons]
    cases Keyed.get? ns k <;> simp

theorem same_obj_iff {ms : Members} {b : Json} : same (.obj ms) b = true ↔
    ∃ ns, b = .obj ns ∧ ms.length = ns.length ∧
      ∀ m ∈ ms, ∃ w, Keyed.get? ns m.1 = some w ∧ same m.2 w = true := by
  cases b <;> simp [same, number?, sameMembers_iff]

theorem same_number_iff {a b : Json} {x : Int ⊕ Double} (ha : number? a = some x) :
    same a b = true ↔ ∃ y, number? b = some y ∧ sameNumber x y = true := by
  cases a <;> cases b <;> simp_all [same, number?]

/-! ## An equivalence -/

theorem sizeOf_lt_of_mem_members {k : Text} {v : Json} {ms : Members} (h : (k, v) ∈ ms) :
    sizeOf v < sizeOf (Json.obj ms) := by
  have hmem := List.sizeOf_lt_of_mem h
  rw [Prod.mk.sizeOf_spec] at hmem
  rw [Json.obj.sizeOf_spec]
  omega

theorem sizeOf_lt_of_mem_items {x : Json} {xs : List Json} (h : x ∈ xs) : sizeOf x < sizeOf (Json.arr xs) := by
  have hmem := List.sizeOf_lt_of_mem h
  rw [Json.arr.sizeOf_spec]
  omega

/-- Induction over the values inside a value. -/
theorem nested_induction {P : Json → Prop} (null : P .null) (str : ∀ s, P (.str s))
    (number : ∀ j x, number? j = some x → P j) (arr : ∀ xs, (∀ x ∈ xs, P x) → P (.arr xs))
    (obj : ∀ ms, (∀ m ∈ ms, P m.2) → P (.obj ms)) (j : Json) : P j := by
  cases j with
  | null => exact null
  | str s => exact str s
  | arr xs =>
    refine arr xs fun x hx => ?_
    have hlt := sizeOf_lt_of_mem_items hx
    exact nested_induction null str number arr obj x
  | obj ms =>
    refine obj ms fun m hm => ?_
    have hlt := sizeOf_lt_of_mem_members hm
    exact nested_induction null str number arr obj m.2
  | _ => exact number _ _ rfl
  termination_by sizeOf j
  decreasing_by all_goals exact hlt

theorem properItems_iff {xs : List Json} : ProperItems xs ↔ ∀ x ∈ xs, x.Proper := by
  induction xs with
  | nil => simp [ProperItems]
  | cons x xs ih => simp [ProperItems, ih]

theorem properMembers_iff {ms : Members} : ProperMembers ms ↔ ∀ m ∈ ms, m.2.Proper := by
  induction ms with
  | nil => simp [ProperMembers]
  | cons m ms ih => simp [ProperMembers, ih]

theorem proper_arr_iff {xs : List Json} : (Json.arr xs).Proper ↔ ∀ x ∈ xs, x.Proper := properItems_iff

theorem proper_obj_iff {ms : Members} :
    (Json.obj ms).Proper ↔ (ms.map Prod.fst).Nodup ∧ ∀ m ∈ ms, m.2.Proper := by
  rw [Proper, properMembers_iff]

theorem proper_of_get? {ms : Members} (h : (Json.obj ms).Proper) {k : Text} {v : Json} (hv : Keyed.get? ms k = some v) :
    v.Proper := (proper_obj_iff.1 h).2 (k, v) (Keyed.mem_of_get? hv)

theorem same_refl {j : Json} (h : j.Proper) : same j j = true := by
  induction j using nested_induction with
  | null => rfl
  | str s => exact same_str_iff.2 rfl
  | number j x hx =>
    have hproper := proper_of_number? h hx
    exact (same_number_iff hx).2 ⟨x, hx, (sameNumber_iff hproper hproper).2 rfl⟩
  | arr xs ih =>
    have hxs := proper_arr_iff.1 h
    exact same_arr_iff.2 ⟨xs, rfl, rfl, fun i hi _ => ih xs[i] (List.getElem_mem hi) (hxs _ (List.getElem_mem hi))⟩
  | obj ms ih =>
    obtain ⟨hnodup, hms⟩ := proper_obj_iff.1 h
    exact same_obj_iff.2 ⟨ms, rfl, rfl, fun m hm => ⟨m.2, Keyed.get?_of_mem hnodup hm, ih m hm (hms m hm)⟩⟩

theorem same_symm {a b : Json} (ha : a.Proper) (hb : b.Proper) (h : same a b = true) : same b a = true := by
  induction a using nested_induction generalizing b with
  | null =>
    obtain rfl := same_null_iff.1 h
    rfl
  | str s =>
    obtain rfl := same_str_iff.1 h
    exact same_refl hb
  | number a x hx =>
    obtain ⟨y, hy, hxy⟩ := (same_number_iff hx).1 h
    have hx' := proper_of_number? ha hx
    have hy' := proper_of_number? hb hy
    exact (same_number_iff hy).2 ⟨x, hx, (sameNumber_iff hy' hx').2 ((sameNumber_iff hx' hy').1 hxy).symm⟩
  | arr xs ih =>
    obtain ⟨ys, rfl, hlength, hxy⟩ := same_arr_iff.1 h
    have hxs := proper_arr_iff.1 ha
    have hys := proper_arr_iff.1 hb
    refine same_arr_iff.2 ⟨xs, rfl, hlength.symm, fun i hi hi' => ?_⟩
    exact ih xs[i] (List.getElem_mem hi') (hxs _ (List.getElem_mem hi')) (hys _ (List.getElem_mem hi)) (hxy i hi' hi)
  | obj ms ih =>
    obtain ⟨ns, rfl, hlength, hmn⟩ := same_obj_iff.1 h
    obtain ⟨hnodup, hms⟩ := proper_obj_iff.1 ha
    obtain ⟨hnodup', hns⟩ := proper_obj_iff.1 hb
    refine same_obj_iff.2 ⟨ms, rfl, hlength.symm, fun n hn => ?_⟩
    -- As many names on both sides, and those on the left are among those on the right.
    have hsub : ms.map Prod.fst ⊆ ns.map Prod.fst := by
      intro k hk
      obtain ⟨m, hm, rfl⟩ := List.mem_map.1 hk
      obtain ⟨w, hw, -⟩ := hmn m hm
      exact List.mem_map.2 ⟨_, Keyed.mem_of_get? hw, rfl⟩
    have hperm := (hnodup.subperm hsub).perm_of_length_le (by simp [hlength])
    obtain ⟨m, hm, hname⟩ := List.mem_map.1 (hperm.mem_iff.2 (List.mem_map_of_mem hn))
    obtain ⟨w, hw, hsame⟩ := hmn m hm
    have hvalue : w = n.2 := by
      rw [hname, Keyed.get?_of_mem hnodup' hn] at hw
      exact (Option.some.inj hw).symm
    subst hvalue
    exact ⟨m.2, hname ▸ Keyed.get?_of_mem hnodup hm, ih m hm (hms m hm) (hns n hn) hsame⟩

theorem same_trans {a b c : Json} (ha : a.Proper) (hb : b.Proper) (hc : c.Proper) (hab : same a b = true)
    (hbc : same b c = true) : same a c = true := by
  induction a using nested_induction generalizing b c with
  | null =>
    obtain rfl := same_null_iff.1 hab
    exact hbc
  | str s =>
    obtain rfl := same_str_iff.1 hab
    exact hbc
  | number a x hx =>
    obtain ⟨y, hy, hxy⟩ := (same_number_iff hx).1 hab
    obtain ⟨z, hz, hyz⟩ := (same_number_iff hy).1 hbc
    have hx' := proper_of_number? ha hx
    have hy' := proper_of_number? hb hy
    have hz' := proper_of_number? hc hz
    have hvalue := ((sameNumber_iff hx' hy').1 hxy).trans ((sameNumber_iff hy' hz').1 hyz)
    exact (same_number_iff hx).2 ⟨z, hz, (sameNumber_iff hx' hz').2 hvalue⟩
  | arr xs ih =>
    obtain ⟨ys, rfl, hlength, hxy⟩ := same_arr_iff.1 hab
    obtain ⟨zs, rfl, hlength', hyz⟩ := same_arr_iff.1 hbc
    have hxs := proper_arr_iff.1 ha
    have hys := proper_arr_iff.1 hb
    have hzs := proper_arr_iff.1 hc
    refine same_arr_iff.2 ⟨zs, rfl, hlength.trans hlength', fun i hi hi' => ?_⟩
    have hmid : i < ys.length := hlength ▸ hi
    exact ih xs[i] (List.getElem_mem hi) (hxs _ (List.getElem_mem hi)) (hys _ (List.getElem_mem hmid))
      (hzs _ (List.getElem_mem hi')) (hxy i hi hmid) (hyz i hmid hi')
  | obj ms ih =>
    obtain ⟨ns, rfl, hlength, hmn⟩ := same_obj_iff.1 hab
    obtain ⟨os, rfl, hlength', hno⟩ := same_obj_iff.1 hbc
    refine same_obj_iff.2 ⟨os, rfl, hlength.trans hlength', fun m hm => ?_⟩
    obtain ⟨v, hv, hsame⟩ := hmn m hm
    obtain ⟨w, hw, hsame'⟩ := hno (m.1, v) (Keyed.mem_of_get? hv)
    have hm' := (proper_obj_iff.1 ha).2 m hm
    exact ⟨w, hw, ih m hm hm' (proper_of_get? hb hv) (proper_of_get? hc hw) hsame hsame'⟩

/-! ## Lists without equal values -/

/-- A value that equals one in the list. -/
def Listed (x : Json) (xs : List Json) : Prop := ∃ y ∈ xs, same x y = true

instance (x : Json) (xs : List Json) : Decidable (Listed x xs) :=
  inferInstanceAs (Decidable (∃ y ∈ xs, same x y = true))

/-- No two values of the list are equal. -/
def NoneTwice (xs : List Json) : Prop := xs.Pairwise fun x y => same x y = false

theorem distinct_append_singleton (xs : List Json) (x : Json) :
    distinct (xs ++ [x]) = if (distinct xs).any (same x) then distinct xs else distinct xs ++ [x] := by
  simp only [distinct, List.foldl_append, List.foldl_cons, List.foldl_nil, List.any_reverse]
  split <;> simp

theorem isEmpty_distinct (rs : List Json) : (distinct rs).isEmpty = rs.isEmpty := by
  induction rs using List.reverseRecOn with
  | nil => rfl
  | append_singleton rs r ih =>
    have hlast (ys : List Json) : (ys ++ [r]).isEmpty = false := List.isEmpty_eq_false_iff.2 (by simp)
    rw [distinct_append_singleton, hlast]
    split
    · next hany =>
      obtain ⟨x, hx, -⟩ := List.any_eq_true.1 hany
      exact List.isEmpty_eq_false_iff.2 (List.ne_nil_of_mem hx)
    · exact hlast (distinct rs)

theorem mem_of_mem_distinct {xs : List Json} {x : Json} (h : x ∈ distinct xs) : x ∈ xs := by
  induction xs using List.reverseRecOn with
  | nil => exact h
  | append_singleton xs y ih =>
    rw [distinct_append_singleton] at h
    split at h
    · exact List.mem_append_left _ (ih h)
    · rcases List.mem_append.1 h with h | h
      · exact List.mem_append_left _ (ih h)
      · exact List.mem_append_right _ h

section
variable {xs : List Json} (hxs : ∀ x ∈ xs, x.Proper)
include hxs

theorem noneTwice_append_singleton_iff {x : Json} (hx : x.Proper) :
    NoneTwice (xs ++ [x]) ↔ NoneTwice xs ∧ xs.any (same x) = false := by
  have hflip (y : Json) (hy : y ∈ xs) : same y x = false ↔ same x y = false := by
    rw [← Bool.not_eq_true, ← Bool.not_eq_true]
    exact not_congr ⟨same_symm (hxs y hy) hx, same_symm hx (hxs y hy)⟩
  simp only [NoneTwice, List.pairwise_append, List.pairwise_singleton, List.mem_singleton, forall_eq,
    List.any_eq_false, Bool.not_eq_true, true_and]
  exact and_congr_right fun _ => forall₂_congr hflip

theorem noneTwice_distinct : NoneTwice (distinct xs) := by
  induction xs using List.reverseRecOn with
  | nil => exact List.Pairwise.nil
  | append_singleton xs x ih =>
    have hinit : ∀ y ∈ xs, y.Proper := fun y hy => hxs y (List.mem_append_left _ hy)
    have hdistinct : ∀ y ∈ distinct xs, y.Proper := fun y hy => hinit y (mem_of_mem_distinct hy)
    rw [distinct_append_singleton]
    split
    · exact ih hinit
    · next hnew =>
      have hlast : x.Proper := hxs x (List.mem_append_right _ (List.mem_singleton.2 rfl))
      exact (noneTwice_append_singleton_iff hdistinct hlast).2 ⟨ih hinit, Bool.not_eq_true _ ▸ hnew⟩

theorem distinct_of_noneTwice (h : NoneTwice xs) : distinct xs = xs := by
  induction xs using List.reverseRecOn with
  | nil => rfl
  | append_singleton xs x ih =>
    have hinit : ∀ y ∈ xs, y.Proper := fun y hy => hxs y (List.mem_append_left _ hy)
    have hlast : x.Proper := hxs x (List.mem_append_right _ (List.mem_singleton.2 rfl))
    obtain ⟨hnone, hnew⟩ := (noneTwice_append_singleton_iff hinit hlast).1 h
    rw [distinct_append_singleton, ih hinit hnone, hnew]
    rfl

theorem distinct_distinct_append (ys : List Json) : distinct (distinct xs ++ ys) = distinct (xs ++ ys) := by
  induction ys using List.reverseRecOn with
  | nil =>
    rw [List.append_nil, List.append_nil]
    exact distinct_of_noneTwice (fun x hx => hxs x (mem_of_mem_distinct hx)) (noneTwice_distinct hxs)
  | append_singleton ys y ih =>
    rw [← List.append_assoc, ← List.append_assoc, distinct_append_singleton, distinct_append_singleton, ih]

theorem listed_distinct_of_mem {x : Json} (hx : x ∈ xs) : Listed x (distinct xs) := by
  induction xs using List.reverseRecOn with
  | nil => cases hx
  | append_singleton xs y ih =>
    rw [distinct_append_singleton]
    rcases List.mem_append.1 hx with hmem | hmem
    · obtain ⟨z, hz, hsame⟩ := ih (fun y hy => hxs y (List.mem_append_left _ hy)) hmem
      split
      · exact ⟨z, hz, hsame⟩
      · exact ⟨z, List.mem_append_left _ hz, hsame⟩
    · obtain rfl := List.mem_singleton.1 hmem
      split
      · next hany => exact List.any_eq_true.1 hany
      · exact ⟨x, List.mem_append_right _ hmem, same_refl (hxs x hx)⟩

/-- Leaving out what is there already changes nothing about which values are listed. -/
theorem listed_distinct_iff {x : Json} (hx : x.Proper) : Listed x (distinct xs) ↔ Listed x xs := by
  constructor
  · rintro ⟨y, hy, hsame⟩
    exact ⟨y, mem_of_mem_distinct hy, hsame⟩
  · rintro ⟨y, hy, hxy⟩
    obtain ⟨z, hz, hyz⟩ := listed_distinct_of_mem hxs hy
    exact ⟨z, hz, same_trans hx (hxs y hy) (hxs z (mem_of_mem_distinct hz)) hxy hyz⟩

theorem distinct_append_distinct {rs : List Json} (hrs : ∀ r ∈ rs, r.Proper) :
    distinct (rs ++ distinct xs) = distinct (rs ++ xs) := by
  induction xs using List.reverseRecOn with
  | nil => rfl
  | append_singleton xs x ih =>
    obtain ⟨hinit, hlast⟩ := List.forall_mem_append.1 hxs
    rw [← List.append_assoc, distinct_append_singleton (rs ++ xs), distinct_append_singleton xs]
    split
    · next hany =>
      -- an equal of the entry is listed among those in front of it, so it is left out on both sides
      obtain ⟨y, hy, hsame⟩ := List.any_eq_true.1 hany
      have hlisted : Listed x (rs ++ xs) := ⟨y, List.mem_append_right _ (mem_of_mem_distinct hy), hsame⟩
      have hproper : ∀ r ∈ rs ++ xs, r.Proper := List.forall_mem_append.2 ⟨hrs, hinit⟩
      obtain ⟨z, hz, hsame⟩ := (listed_distinct_iff hproper (List.forall_mem_singleton.1 hlast)).2 hlisted
      rw [if_pos (List.any_eq_true.2 ⟨z, hz, hsame⟩), ih hinit]
    · rw [← List.append_assoc, distinct_append_singleton (rs ++ distinct xs), ih hinit]

end

end Json

end DocPages
