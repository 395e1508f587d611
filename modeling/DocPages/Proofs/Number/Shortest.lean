import DocPages.Proofs.Number.Rounding

/-!
# Shortest decimals read back

Whatever grid the search takes its decimal from, it takes it only if it is rounded to the double. On the grid of
seventeen digits there is always one to take: the step of that grid is smaller than the interval of what is
rounded to the double.
-/

namespace DocPages

open Double

namespace Rounding

section
variable {m : Nat} {e : Int} (hm : 0 < m)

theorem ofDouble_den_pos (m : Nat) (e : Int) : 0 < (ofDouble m e).den := Nat.pow_pos (by decide)

/-- The unit over the denominator is a quarter of the last place. -/
theorem unit_div (m : Nat) (e : Int) : ((powTwo (e - 2).toNat : Nat) : ℚ) / (ofDouble m e).den = 2 ^ e / 4 := by
  have hneg : 2 - e = -(e - 2) := by omega
  have hpow : (2 : ℚ) ^ e / 4 = 2 ^ (e - 2) := by
    rw [zpow_sub₀ (by norm_num)]
    norm_num
  rw [hpow, zpow_eq_div 2 (e - 2)]
  simp only [ofDouble, powTwo_eq, hneg, Nat.cast_pow, Nat.cast_ofNat]

theorem value_div (m : Nat) (e : Int) : ((ofDouble m e).value : ℚ) / (ofDouble m e).den = m * 2 ^ e := by
  have hvalue : ((ofDouble m e).value : ℚ) = 4 * m * (powTwo (e - 2).toNat : Nat) := by
    simp only [ofDouble]
    push_cast
    ring
  rw [hvalue, mul_div_assoc, unit_div]
  ring

theorem high_div (m : Nat) (e : Int) :
    ((ofDouble m e).high : ℚ) / (ofDouble m e).den = (m + 1 / 2) * 2 ^ e := by
  have hhigh : ((ofDouble m e).high : ℚ) = (4 * m + 2) * (powTwo (e - 2).toNat : Nat) := by
    simp only [ofDouble]
    push_cast
    ring
  rw [hhigh, mul_div_assoc, unit_div]
  ring

include hm in
theorem low_div (e : Int) : ((ofDouble m e).low : ℚ) / (ofDouble m e).den = (m - gap m e) * 2 ^ e := by
  have hlow : ((ofDouble m e).low : ℚ) = (4 * m - 4 * gap m e) * (powTwo (e - 2).toNat : Nat) := by
    by_cases h : m = 2 ^ 52 ∧ -1074 < e
    · have hlow : (ofDouble m e).low = (4 * m - 1) * powTwo (e - 2).toNat :=
        congrArg (fun g => (4 * m - g) * powTwo (e - 2).toNat) (if_pos h)
      rw [hlow, gap, if_pos h, Nat.cast_mul, Nat.cast_sub (by omega)]
      push_cast
      ring
    · have hlow : (ofDouble m e).low = (4 * m - 2) * powTwo (e - 2).toNat :=
        congrArg (fun g => (4 * m - g) * powTwo (e - 2).toNat) (if_neg h)
      rw [hlow, gap, if_neg h, Nat.cast_mul, Nat.cast_sub (by omega)]
      push_cast
      ring
  rw [hlow, mul_div_assoc, unit_div]
  ring

include hm in
/-- A fraction is taken if and only if it is rounded to the double. -/
theorem holds_iff (e : Int) {n d : Nat} (hd : 0 < d) :
    (ofDouble m e).holds n d = true ↔ Near m e ((n : ℚ) / d) := by
  have hdq : (0 : ℚ) < d := Nat.cast_pos.2 hd
  have hden : (0 : ℚ) < (ofDouble m e).den := Nat.cast_pos.2 (ofDouble_den_pos m e)
  have hclosed : (ofDouble m e).closed = (m % 2 == 0) := rfl
  have hle (a b : Nat) : a * d ≤ n * b ↔ (a : ℚ) * d ≤ n * b := by exact_mod_cast Iff.rfl
  have hge (a b : Nat) : n * a ≤ b * d ↔ (n : ℚ) * a ≤ b * d := by exact_mod_cast Iff.rfl
  have hlt (a b : Nat) : a * d < n * b ↔ (a : ℚ) * d < n * b := by exact_mod_cast Iff.rfl
  have hgt (a b : Nat) : n * a < b * d ↔ (n : ℚ) * a < b * d := by exact_mod_cast Iff.rfl
  rw [Near, ← low_div hm, ← high_div, holds, hclosed]
  by_cases heven : m % 2 = 0
  · simp only [heven, beq_self_eq_true, if_true, Bool.and_eq_true, decide_eq_true_eq, hle, hge,
      div_le_div_iff₀ hden hdq, div_le_div_iff₀ hdq hden]
  · simp only [beq_eq_false_iff_ne.2 heven, Bool.false_eq_true, if_neg heven, if_false, Bool.and_eq_true,
      decide_eq_true_eq, hlt, hgt, div_lt_div_iff₀ hden hdq, div_lt_div_iff₀ hdq hden]

/-- A point of a grid as a fraction. -/
theorem grid_div (n : Nat) (p : Int) :
    ((n * powTen p.toNat : Nat) : ℚ) / (powTen (-p).toNat : Nat) = n * 10 ^ p := by
  rw [zpow_eq_div 10 p, powTen_eq, powTen_eq]
  push_cast
  ring

include hm in
/-- What is taken from a grid is rounded to the double. -/
theorem near_of_onGrid? {p : Int} {d : Decimal} (h : (ofDouble m e).onGrid? p = some d) :
    Near m e (d.digits * 10 ^ d.exponent) := by
  have hdown : 0 < powTen (-p).toNat := Nat.pow_pos (by decide)
  have hnear {n : Nat} (hn : (ofDouble m e).holds (n * powTen p.toNat) (powTen (-p).toNat) = true) :
      Near m e (n * 10 ^ p) := by
    rw [← grid_div]
    exact (holds_iff hm e hdown).1 hn
  unfold onGrid? at h
  dsimp only at h
  split at h
  · rename_i hboth
    obtain ⟨hbelow, habove⟩ := Bool.and_eq_true_iff.1 hboth
    obtain rfl := Option.some.inj h
    rcases roundDiv_cases ((ofDouble m e).value * powTen (-p).toNat) ((ofDouble m e).den * powTen p.toNat) with hr | hr
    · simp only [hr]
      exact hnear hbelow
    · simp only [hr]
      exact hnear habove
  · split at h
    · rename_i hbelow
      obtain rfl := Option.some.inj h
      exact hnear hbelow
    · split at h
      · rename_i habove
        obtain rfl := Option.some.inj h
        exact hnear habove
      · cases h

theorem near_of_lt {x : ℚ} (hlow : (m - gap m e) * 2 ^ e < x) (hhigh : x < (m + 1 / 2) * 2 ^ e) : Near m e x := by
  unfold Near
  split
  · exact ⟨hlow.le, hhigh.le⟩
  · exact ⟨hlow, hhigh⟩

/-- The step of a grid of seventeen digits is smaller than the interval. -/
theorem step_lt (hN : Normal m e) {p : Int} (hp : (10 : ℚ) ^ p * 10 ^ 16 ≤ m * 2 ^ e) :
    (10 : ℚ) ^ p < (gap m e + 1 / 2) * 2 ^ e := by
  have hunit := two_zpow_pos e
  unfold gap
  split
  · rename_i h
    have hm : (m : ℚ) = 2 ^ 52 := by exact_mod_cast h.1
    rw [hm] at hp
    norm_num at hp ⊢
    linarith
  · have hm : (m : ℚ) ≤ 2 ^ 53 := by exact_mod_cast hN.lt.le
    have hle : (m : ℚ) * 2 ^ e ≤ 2 ^ 53 * 2 ^ e := mul_le_mul_of_nonneg_right hm hunit.le
    norm_num at hle hp ⊢
    linarith

/-- The value lies between its neighbours on a grid. -/
theorem grid_bounds (m : Nat) (e p : Int) {q : Nat}
    (hq : (ofDouble m e).value * powTen (-p).toNat / ((ofDouble m e).den * powTen p.toNat) = q) :
    q * 10 ^ p ≤ (m : ℚ) * 2 ^ e ∧ (m : ℚ) * 2 ^ e < (q + 1) * 10 ^ p := by
  have hten : (0 : ℚ) < 10 ^ p := zpow_pos (by norm_num) p
  have hquot : (((ofDouble m e).value * powTen (-p).toNat : Nat) : ℚ) / ((ofDouble m e).den * powTen p.toNat : Nat) =
      m * 2 ^ e / 10 ^ p := by
    rw [← value_div, zpow_eq_div 10 p, powTen_eq, powTen_eq]
    push_cast
    field_simp
  rw [← le_div_iff₀ hten, ← div_lt_iff₀ hten, ← hquot, ← hq, ← Nat.floor_div_eq_div (K := ℚ)]
  exact ⟨Nat.floor_le (by positivity), Nat.lt_floor_add_one _⟩

/-- One of the two neighbours is in the interval, since they are less than its width apart. -/
theorem near_neighbour (hN : Normal m e) {p : Int} (hp : (10 : ℚ) ^ p * 10 ^ 16 ≤ m * 2 ^ e) {q : Nat}
    (hbelow : q * 10 ^ p ≤ (m : ℚ) * 2 ^ e) (habove : (m : ℚ) * 2 ^ e < (q + 1) * 10 ^ p) :
    Near m e (q * 10 ^ p) ∨ Near m e ((q + 1 : Nat) * 10 ^ p) := by
  have hstep := step_lt hN hp
  have hunit := two_zpow_pos e
  have hgap : 0 < gap m e * 2 ^ e := mul_pos (by unfold gap; split <;> norm_num) hunit
  rcases lt_or_ge ((m : ℚ) * 2 ^ e - q * 10 ^ p) (gap m e * 2 ^ e) with hclose | hfar
  · exact .inl (near_of_lt (by linarith) (by linarith))
  · right
    push_cast
    exact near_of_lt (by linarith) (by linarith)

include hm in
theorem isSome_onGrid? (hN : Normal m e) {p : Int} (hp : (10 : ℚ) ^ p * 10 ^ 16 ≤ m * 2 ^ e) :
    ((ofDouble m e).onGrid? p).isSome = true := by
  have hdown : 0 < powTen (-p).toNat := Nat.pow_pos (by decide)
  unfold onGrid?
  dsimp only
  generalize hq : (ofDouble m e).value * powTen (-p).toNat / ((ofDouble m e).den * powTen p.toNat) = q
  obtain ⟨hbelow, habove⟩ := grid_bounds m e p hq
  rcases near_neighbour hN hp hbelow habove with hnear | hnear
  · rw [← grid_div, ← holds_iff hm e hdown] at hnear
    rw [hnear]
    split
    · rfl
    · rfl
  · rw [← grid_div, ← holds_iff hm e hdown] at hnear
    rw [hnear]
    split
    · rfl
    · split
      · rfl
      · rfl

include hm in
/-- The value has as many digits before the point as its magnitude says, or more. -/
theorem pow_magnitude_le (e : Int) : (10 : ℚ) ^ ((ofDouble m e).magnitude - 1) ≤ m * 2 ^ e := by
  have hden := ofDouble_den_pos m e
  have hdenq : (0 : ℚ) < (ofDouble m e).den := Nat.cast_pos.2 hden
  have hvalue : 0 < (ofDouble m e).value := by
    have hpos : (0 : ℚ) < (ofDouble m e).value / (ofDouble m e).den := by
      rw [value_div]
      exact mul_pos (Nat.cast_pos.2 hm) (two_zpow_pos e)
    exact_mod_cast (div_pos_iff_of_pos_right hdenq).1 hpos
  rw [← value_div]
  generalize ofDouble m e = r at *
  unfold magnitude
  split
  · rename_i hle
    have hwhole : 0 < r.value / r.den := Nat.div_pos hle hden
    have hlen : ((Nat.toDigits 10 (r.value / r.den)).length : Int) - 1 =
        ((Nat.toDigits 10 (r.value / r.den)).length - 1 : Nat) := by
      have := Nat.length_toDigits_pos (b := 10) (n := r.value / r.den)
      omega
    rw [hlen, zpow_natCast]
    have hpow : (10 : ℚ) ^ ((Nat.toDigits 10 (r.value / r.den)).length - 1) ≤ (r.value / r.den : Nat) := by
      exact_mod_cast Text.pow_length_ofNat_le hwhole
    refine hpow.trans ?_
    rw [← Nat.floor_div_eq_div (K := ℚ)]
    exact Nat.floor_le (by positivity)
  · generalize hc : (r.den + r.value - 1) / r.value = c
    have hceil : r.den ≤ c * r.value := by
      have hlt := Nat.lt_mul_div_succ (r.den + r.value - 1) hvalue
      rw [hc, Nat.mul_comm, Nat.succ_mul] at hlt
      omega
    have hpow : c ≤ 10 ^ (Nat.toDigits 10 (c - 1)).length := by
      have hlt : c - 1 < 10 ^ (Nat.toDigits 10 (c - 1)).length := Text.lt_pow_length_ofNat (c - 1)
      omega
    have hnat : r.den ≤ 10 ^ (Nat.toDigits 10 (c - 1)).length * r.value :=
      hceil.trans (Nat.mul_le_mul_right r.value hpow)
    have hneg : 1 - ((Nat.toDigits 10 (c - 1)).length : Int) - 1 = -((Nat.toDigits 10 (c - 1)).length : Int) := by
      omega
    rw [hneg, zpow_neg, zpow_natCast, ← one_div, div_le_div_iff₀ (by positivity) hdenq, one_mul, mul_comm]
    exact_mod_cast hnat

end

end Rounding

namespace Decimal

/-- The rational that a decimal stands for. -/
def value (d : Decimal) : ℚ := d.digits * 10 ^ d.exponent

theorem value_trimZeros (fuel : Nat) (d : Decimal) : (trimZeros fuel d).value = d.value := by
  induction fuel generalizing d with
  | zero => rfl
  | succ fuel ih =>
    rw [trimZeros]
    split
    · rename_i hzero
      have hdigits : (d.digits : ℚ) = (d.digits / 10 : Nat) * 10 := by
        exact_mod_cast (Nat.div_mul_cancel (Nat.dvd_of_mod_eq_zero hzero)).symm
      rw [ih, value, value, hdigits, zpow_add_one₀ (by norm_num)]
      ring
    · rfl

/-- The shortest decimal is rounded to the double. -/
theorem near_shortest {m : Nat} {e : Int} (hN : Normal m e) (hm : 0 < m) : Near m e (shortest m e).value := by
  have hten : (10 : ℚ) ≠ 0 := by norm_num
  have hfound : ((List.range 17).findSome? fun n => (Rounding.ofDouble m e).onGrid?
      ((Rounding.ofDouble m e).magnitude - (n + 1 : Nat))).isSome = true := by
    rw [List.findSome?_isSome_iff]
    refine ⟨16, by decide, Rounding.isSome_onGrid? hm hN ?_⟩
    have hpow := Rounding.pow_magnitude_le hm e
    rw [show (Rounding.ofDouble m e).magnitude - 1 = (Rounding.ofDouble m e).magnitude - (16 + 1 : Nat) + 16 by
      omega, zpow_add₀ hten] at hpow
    exact_mod_cast hpow
  obtain ⟨d, hd⟩ := Option.isSome_iff_exists.1 hfound
  obtain ⟨n, -, hgrid⟩ := List.exists_of_findSome?_eq_some hd
  have hshortest : shortest m e = trimZeros 18 d := by
    simp only [shortest, hd]
  rw [hshortest, value_trimZeros]
  exact Rounding.near_of_onGrid? hm hgrid

end Decimal

end DocPages
