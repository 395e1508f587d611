import DocPages.Number.Shortest
import DocPages.Proofs.Text.Numeral
import Mathlib.Algebra.Order.Floor.Semifield
import Mathlib.Data.Int.Log
import Mathlib.Data.Rat.Floor
import Mathlib.Tactic.FieldSimp
import Mathlib.Tactic.Linarith
import Mathlib.Tactic.Positivity
import Mathlib.Tactic.Ring

/-!
# Rounding to doubles

The rationals that are rounded to a double lie between the halves to its neighbours. Reading computes with
whole numbers: it scales a ratio to a quotient of 53 bits, and where the quotient is rounded up to the next
power of two the exponent goes up with it.
-/

namespace DocPages

theorem powTwo_eq (n : Nat) : powTwo n = 2 ^ n := rfl

theorem powTen_eq (n : Nat) : powTen n = 10 ^ n := rfl

/-- A power with any exponent is a quotient of two with natural ones. -/
theorem zpow_eq_div (b : ℚ) (e : Int) : b ^ e = b ^ e.toNat / b ^ (-e).toNat := by
  rcases Int.le_total 0 e with he | he
  · obtain ⟨n, rfl⟩ := Int.eq_ofNat_of_zero_le he
    simp
  · obtain ⟨n, hn⟩ := Int.eq_ofNat_of_zero_le (show 0 ≤ -e by omega)
    obtain rfl : e = -(n : Int) := by omega
    simp

/-! ## Rounding a quotient -/

/-- The remainder decides between the two numbers around a quotient. -/
theorem roundDiv_of_mod {n d q : Nat} (hq : n / d = q) : roundDiv n d =
    if 2 * (n % d) < d then q else if d < 2 * (n % d) then q + 1 else q + q % 2 := by
  rw [roundDiv, hq]

theorem roundDiv_cases (n d : Nat) : roundDiv n d = n / d ∨ roundDiv n d = n / d + 1 := by
  rw [roundDiv_of_mod rfl]
  split_ifs
  · exact .inl rfl
  · exact .inr rfl
  · rcases Nat.mod_two_eq_zero_or_one (n / d) with h | h <;> simp [h]

/-- Twice the quotient is compared with whole numbers, so that its halves are. -/
theorem roundDiv_eq_of_bounds {n d m : Nat} (hlow : 2 * (m * d) ≤ 2 * n + d) (hhigh : 2 * n ≤ 2 * (m * d) + d)
    (htie : 2 * n = 2 * (m * d) + d ∨ 2 * n + d = 2 * (m * d) → m % 2 = 0) (hd : 0 < d) : roundDiv n d = m := by
  rcases Nat.lt_or_ge n (m * d) with hn | hn
  · obtain ⟨k, rfl⟩ : ∃ k, m = k + 1 := Nat.exists_eq_succ_of_ne_zero (by rintro rfl; simp at hn)
    have hk : (k + 1) * d = k * d + d := Nat.succ_mul k d
    have hq : n / d = k := Nat.div_eq_of_lt_le (by omega) (by omega)
    have hr : k * d + n % d = n := by rw [← hq, Nat.mul_comm]; exact Nat.div_add_mod n d
    rw [roundDiv_of_mod hq]
    split_ifs with h₁ h₂
    · omega
    · rfl
    · have := htie (.inr (by omega))
      omega
  · have hq : n / d = m := Nat.div_eq_of_lt_le hn (by rw [Nat.succ_mul]; omega)
    have hr : m * d + n % d = n := by rw [← hq, Nat.mul_comm]; exact Nat.div_add_mod n d
    rw [roundDiv_of_mod hq]
    split_ifs with h₁ h₂
    · rfl
    · omega
    · have := htie (.inl (by omega))
      omega

/-- A quotient is rounded to a number that is at most a half away, and a whole half only if it is even. -/
theorem roundDiv_eq {n d m : Nat} (hd : 0 < d) (h : |(n : ℚ) / d - m| ≤ 1 / 2)
    (htie : |(n : ℚ) / d - m| = 1 / 2 → m % 2 = 0) : roundDiv n d = m := by
  have hdq : (0 : ℚ) < d := Nat.cast_pos.2 hd
  obtain ⟨hlow, hhigh⟩ := abs_le.1 h
  have hlow' : ((2 * (m * d) : ℕ) : ℚ) ≤ ((2 * n + d : ℕ) : ℚ) := by
    have hmul : ((m : ℚ) - 1 / 2) * d ≤ n := (le_div_iff₀ hdq).1 (by linarith)
    push_cast
    linarith
  have hhigh' : ((2 * n : ℕ) : ℚ) ≤ ((2 * (m * d) + d : ℕ) : ℚ) := by
    have hmul : (n : ℚ) ≤ ((m : ℚ) + 1 / 2) * d := (div_le_iff₀ hdq).1 (by linarith)
    push_cast
    linarith
  refine roundDiv_eq_of_bounds (Nat.cast_le.1 hlow') (Nat.cast_le.1 hhigh') (fun hn => htie ?_) hd
  rcases hn with hn | hn
  · have hn : 2 * (n : ℚ) = 2 * (m * d) + d := by exact_mod_cast hn
    have hq : (n : ℚ) / d - m = 1 / 2 := by
      field_simp
      linarith
    rw [hq]
    norm_num
  · have hn : 2 * (n : ℚ) + d = 2 * (m * d) := by exact_mod_cast hn
    have hq : (n : ℚ) / d - m = -(1 / 2) := by
      field_simp
      linarith
    rw [hq]
    norm_num

namespace Double

/-- The magnitude fills 53 bits unless the exponent is the least one, and the exponent is in range. -/
structure Normal (m : Nat) (e : Int) : Prop where
  lt : m < 2 ^ 53
  least : -1074 ≤ e
  greatest : e ≤ 971
  full : e = -1074 ∨ 2 ^ 52 ≤ m

/-- A finite double has its magnitude and exponent in range. -/
def Proper : Double → Prop
  | .finite _ m e => Normal m e
  | _ => True

/-- How far below `m` the half to the neighbour is, in units of the last place. -/
def gap (m : Nat) (e : Int) : ℚ := if m = 2 ^ 52 ∧ -1074 < e then 1 / 4 else 1 / 2

/-- The rationals that are rounded to `m · 2 ^ e`. -/
def Near (m : Nat) (e : Int) (x : ℚ) : Prop :=
  if m % 2 = 0 then (m - gap m e) * 2 ^ e ≤ x ∧ x ≤ (m + 1 / 2) * 2 ^ e
  else (m - gap m e) * 2 ^ e < x ∧ x < (m + 1 / 2) * 2 ^ e

theorem two_zpow_pos (e : Int) : (0 : ℚ) < 2 ^ e := zpow_pos (by norm_num) e

section
variable {m : Nat} {e : Int} {x : ℚ}

theorem gap_le (m : Nat) (e : Int) : gap m e ≤ 1 / 2 := by
  unfold gap
  split <;> norm_num

/-- In units of the last place, what is near is at most a half away, and less if `m` is odd. -/
theorem Near.scaled (h : Near m e x) : (m : ℚ) - gap m e ≤ x / 2 ^ e ∧ x / 2 ^ e ≤ m + 1 / 2 ∧
    (m % 2 = 1 → (m : ℚ) - gap m e < x / 2 ^ e ∧ x / 2 ^ e < m + 1 / 2) := by
  have hp := two_zpow_pos e
  rw [le_div_iff₀ hp, div_le_iff₀ hp, lt_div_iff₀ hp, div_lt_iff₀ hp]
  unfold Near at h
  split at h
  · exact ⟨h.1, h.2, fun hodd => by omega⟩
  · exact ⟨h.1.le, h.2.le, fun _ => h⟩

end

/-! ## Reading a ratio -/

theorem scale_pos {den : Nat} (hden : 0 < den) (num : Nat) (e : Int) : 0 < (scale num den e).2 :=
  Nat.mul_pos hden (Nat.pow_pos (by decide))

theorem scale_div (num den : Nat) (e : Int) :
    ((scale num den e).1 : ℚ) / (scale num den e).2 = num / den / 2 ^ e := by
  simp only [scale, powTwo_eq, Nat.cast_mul, Nat.cast_pow, Nat.cast_ofNat]
  rw [zpow_eq_div 2 e, div_div_eq_mul_div]
  ring

/-- The exponent at which a ratio has 53 bits before the point, or the least one. -/
def exponent (num den : Nat) : Int :=
  let guess : Int := (num.log2 : Int) - den.log2 - 52
  max (if (scale num den guess).1 / (scale num den guess).2 < powTwo 52 then guess - 1 else guess) (-1074)

/-- A ratio between the powers of two that its parts are between. -/
theorem log2_bounds {num den : Nat} (hnum : 0 < num) (hden : 0 < den) :
    (2 : ℚ) ^ ((num.log2 : Int) - den.log2 - 1) ≤ num / den ∧
      (num : ℚ) / den < 2 ^ ((num.log2 : Int) - den.log2 + 1) := by
  have hd : (0 : ℚ) < den := Nat.cast_pos.2 hden
  have hn₁ : (2 : ℚ) ^ (num.log2 : Int) ≤ num := by
    rw [zpow_natCast]
    exact_mod_cast Nat.log2_self_le hnum.ne'
  have hn₂ : (num : ℚ) < 2 ^ ((num.log2 : Int) + 1) := by
    have h : num < 2 ^ (num.log2 + 1) := Nat.lt_log2_self
    exact_mod_cast h
  have hd₁ : (2 : ℚ) ^ (den.log2 : Int) ≤ den := by
    rw [zpow_natCast]
    exact_mod_cast Nat.log2_self_le hden.ne'
  have hd₂ : (den : ℚ) < 2 ^ ((den.log2 : Int) + 1) := by
    have h : den < 2 ^ (den.log2 + 1) := Nat.lt_log2_self
    exact_mod_cast h
  have hlow : (num.log2 : Int) - den.log2 - 1 = num.log2 - (den.log2 + 1) := by omega
  have hhigh : (num.log2 : Int) - den.log2 + 1 = num.log2 + 1 - den.log2 := by omega
  constructor
  · rw [hlow, zpow_sub₀ (by norm_num), div_le_div_iff₀ (two_zpow_pos _) hd]
    exact mul_le_mul hn₁ hd₂.le hd.le (by positivity)
  · rw [hhigh, zpow_sub₀ (by norm_num), div_lt_div_iff₀ hd (two_zpow_pos _)]
    exact mul_lt_mul hn₂ hd₁ (two_zpow_pos _) (two_zpow_pos _).le

/-- Whether a scaled ratio has at most `k` bits before the point is told by its logarithm. -/
theorem scale_lt_iff {num den : Nat} (hnum : 0 < num) (hden : 0 < den) (e : Int) (k : Nat) :
    (scale num den e).1 / (scale num den e).2 < 2 ^ k ↔ Int.log 2 ((num : ℚ) / den) < e + k := by
  have hx : (0 : ℚ) < num / den := by positivity
  have hd : (0 : ℚ) < (scale num den e).2 := Nat.cast_pos.2 (scale_pos hden num e)
  have hpow : (2 : ℚ) ^ (e + k) = 2 ^ k * 2 ^ e := by
    rw [zpow_add₀ (by norm_num), mul_comm, zpow_natCast]
  calc (scale num den e).1 / (scale num den e).2 < 2 ^ k
    _ ↔ ((scale num den e).1 : ℚ) / (scale num den e).2 < 2 ^ k := by
      rw [Nat.div_lt_iff_lt_mul (scale_pos hden num e), div_lt_iff₀ hd]
      exact_mod_cast Iff.rfl
    _ ↔ (num : ℚ) / den < 2 ^ (e + k) := by
      rw [scale_div, div_lt_iff₀ (two_zpow_pos e), hpow]
    _ ↔ Int.log 2 ((num : ℚ) / den) < e + k := by
      rw [← Int.lt_zpow_iff_log_lt (by decide) hx]
      norm_num

theorem exponent_eq {num den : Nat} (hnum : 0 < num) (hden : 0 < den) :
    exponent num den = max (Int.log 2 ((num : ℚ) / den) - 52) (-1074) := by
  have hx : (0 : ℚ) < num / den := by positivity
  obtain ⟨hlow, hhigh⟩ := log2_bounds hnum hden
  have hlow : (num.log2 : Int) - den.log2 - 1 ≤ Int.log 2 ((num : ℚ) / den) :=
    (Int.zpow_le_iff_le_log (by decide) hx).1 (by exact_mod_cast hlow)
  have hhigh : Int.log 2 ((num : ℚ) / den) < (num.log2 : Int) - den.log2 + 1 :=
    (Int.lt_zpow_iff_log_lt (by decide) hx).1 (by exact_mod_cast hhigh)
  unfold exponent
  generalize hg : (num.log2 : Int) - den.log2 - 52 = guess
  have hbits := scale_lt_iff hnum hden guess 52
  simp only [powTwo_eq, hbits]
  split <;> omega

/-- A magnitude rounded up to 54 bits is the least one with 53 at the next exponent. -/
def carry (m : Nat) (e : Int) : Nat × Int := if m = powTwo 53 then (powTwo 52, e + 1) else (m, e)

/-- A ratio scaled to 53 bits and rounded. -/
def rounded (num den : Nat) : Nat × Int :=
  let e := exponent num den
  carry (roundDiv (scale num den e).1 (scale num den e).2) e

theorem ofRatio_eq {num : Nat} (hnum : 0 < num) (neg : Bool) (den : Nat) : ofRatio neg num den =
    if 971 < (rounded num den).2 then .infinite neg else .finite neg (rounded num den).1 (rounded num den).2 := by
  rw [ofRatio, if_neg hnum.ne']
  rfl

section
variable {m num den : Nat} {e : Int} (hN : Normal m e) (hnum : 0 < num) (hden : 0 < den)
  (h : Near m e ((num : ℚ) / den))
include hN hnum hden h

/-- What is near to a double is scaled with its exponent, or with the one below if it is under a power of two. -/
theorem exponent_of_near : exponent num den = e ∨
    exponent num den = e - 1 ∧ m = 2 ^ 52 ∧ -1074 < e ∧ (num : ℚ) / den / 2 ^ e < 2 ^ 52 := by
  have hx : (0 : ℚ) < num / den := by positivity
  have hp := two_zpow_pos e
  obtain ⟨hlow, hhigh, -⟩ := h.scaled
  have hm : (m : ℚ) + 1 ≤ 2 ^ 53 := by exact_mod_cast hN.lt
  have hbelow : Int.log 2 ((num : ℚ) / den) < 53 + e := by
    rw [← Int.lt_zpow_iff_log_lt (by decide) hx, Nat.cast_ofNat, zpow_add₀ (by norm_num)]
    refine (div_lt_iff₀ hp).1 (lt_of_le_of_lt hhigh ?_)
    norm_num at hm ⊢
    linarith
  rw [exponent_eq hnum hden]
  have hleast := hN.least
  rcases hN.full with he | hfull
  · left
    omega
  · have hfull : (2 : ℚ) ^ 52 ≤ m := by exact_mod_cast hfull
    rcases le_or_gt (2 ^ 52) ((num : ℚ) / den / 2 ^ e) with hy | hy
    · have habove : 52 + e ≤ Int.log 2 ((num : ℚ) / den) := by
        rw [← Int.zpow_le_iff_le_log (by decide) hx, Nat.cast_ofNat, zpow_add₀ (by norm_num)]
        exact (le_div_iff₀ hp).1 hy
      left
      omega
    · have hgap := gap_le m e
      have hpower : m = 2 ^ 52 := by
        have hlt : (m : ℚ) < 2 ^ 52 + 1 := by linarith
        have hlt : m < 2 ^ 52 + 1 := by exact_mod_cast hlt
        omega
      have habove : 51 + e ≤ Int.log 2 ((num : ℚ) / den) := by
        rw [← Int.zpow_le_iff_le_log (by decide) hx, Nat.cast_ofNat, zpow_add₀ (by norm_num)]
        refine (le_div_iff₀ hp).1 (le_trans ?_ hlow)
        have hpow : (2 : ℚ) ^ (51 : ℤ) + 1 ≤ 2 ^ 52 := by norm_num
        linarith
      have hunder : Int.log 2 ((num : ℚ) / den) < 52 + e := by
        rw [← Int.lt_zpow_iff_log_lt (by decide) hx, Nat.cast_ofNat, zpow_add₀ (by norm_num)]
        exact (div_lt_iff₀ hp).1 hy
      rcases Int.lt_or_eq_of_le hleast with he | he
      · exact .inr ⟨by omega, hpower, he, hy⟩
      · left
        omega

theorem ofRatio_of_near (neg : Bool) : ofRatio neg num den = .finite neg m e := by
  obtain ⟨hlow, hhigh, hodd⟩ := h.scaled
  rw [ofRatio_eq hnum, rounded, carry]
  rcases exponent_of_near hN hnum hden h with he | ⟨he, rfl, hleast, hunder⟩
  · have hm : roundDiv (scale num den e).1 (scale num den e).2 = m := by
      have hgap := gap_le m e
      refine roundDiv_eq (scale_pos hden num e) ?_ ?_
      · rw [scale_div, abs_le]
        constructor <;> linarith
      · rw [scale_div]
        intro htie
        by_contra hne
        obtain ⟨hlow, hhigh⟩ := hodd (by omega)
        exact (abs_lt.2 ⟨by linarith, by linarith⟩).ne htie
    have hne : m ≠ powTwo 53 := hN.lt.ne
    simp only [he, hm, if_neg hne, if_neg (not_lt.2 hN.greatest)]
  · have hm : roundDiv (scale num den (e - 1)).1 (scale num den (e - 1)).2 = 2 ^ 53 := by
      have hgap : gap (2 ^ 52) e = 1 / 4 := if_pos ⟨rfl, hleast⟩
      have hscale : (num : ℚ) / den / 2 ^ (e - 1) = 2 * (num / den / 2 ^ e) := by
        rw [zpow_sub_one₀ (by norm_num)]
        field_simp
      rw [hgap] at hlow
      refine roundDiv_eq (scale_pos hden num _) ?_ fun _ => by norm_num
      rw [scale_div, hscale, abs_le]
      push_cast at hlow ⊢
      constructor <;> linarith
    simp only [he, hm, powTwo_eq, sub_add_cancel, if_true, if_neg (not_lt.2 hN.greatest)]

end

/-! ## What is read is in range -/

theorem normal_zero : Normal 0 (-1074) := ⟨by norm_num, le_rfl, by norm_num, .inl rfl⟩

section
variable {num den : Nat} (hnum : 0 < num) (hden : 0 < den)
include hnum hden

/-- What has been scaled has at most 53 bits before the point, and no fewer unless the exponent is the least one. -/
theorem quotient_bounds :
    (scale num den (exponent num den)).1 / (scale num den (exponent num den)).2 < 2 ^ 53 ∧
      (exponent num den = -1074 ∨
        2 ^ 52 ≤ (scale num den (exponent num den)).1 / (scale num den (exponent num den)).2) := by
  have heq := exponent_eq hnum hden
  rw [scale_lt_iff hnum hden, ← not_lt (b := 2 ^ 52), scale_lt_iff hnum hden]
  push_cast
  omega

/-- Rounding up does not leave the range, since it carries into the exponent. -/
theorem normal_rounded (hgreatest : (rounded num den).2 ≤ 971) : Normal (rounded num den).1 (rounded num den).2 := by
  obtain ⟨hlt, hfull⟩ := quotient_bounds hnum hden
  have hleast : -1074 ≤ exponent num den := le_max_right _ _
  rw [rounded, carry] at hgreatest ⊢
  generalize exponent num den = e at *
  have hround := roundDiv_cases (scale num den e).1 (scale num den e).2
  rw [powTwo_eq, powTwo_eq] at *
  split_ifs at hgreatest ⊢ with hcarry
  · exact ⟨by norm_num, by omega, hgreatest, .inr le_rfl⟩
  · exact ⟨by omega, hleast, hgreatest, hfull.imp_right fun h => by omega⟩

end

theorem proper_ofRatio (neg : Bool) (num : Nat) {den : Nat} (hden : 0 < den) : (ofRatio neg num den).Proper := by
  rcases Nat.eq_zero_or_pos num with rfl | hnum
  · exact normal_zero
  · rw [ofRatio_eq hnum]
    split_ifs with h
    · trivial
    · exact normal_rounded hnum hden (not_lt.1 h)

/-- Whatever decimal is read, the double is in range. -/
theorem proper_ofDecimal (neg : Bool) (digits : Nat) (exponent : Int) : (ofDecimal neg digits exponent).Proper := by
  unfold ofDecimal
  dsimp only
  split_ifs
  · exact normal_zero
  · trivial
  · exact proper_ofRatio neg _ (Nat.pow_pos (by decide))

/-! ## Reading a decimal -/

section
variable {m : Nat} {e : Int} {x : ℚ}

/-- What is near to a double other than zero is at least half a unit of the last place. -/
theorem Near.half_le (hm : 0 < m) (h : Near m e x) : 2 ^ e / 2 ≤ x := by
  have hgap := gap_le m e
  have hone : (1 : ℚ) ≤ m := by exact_mod_cast hm
  have hy : 1 / 2 ≤ x / 2 ^ e := by linarith [h.scaled.1]
  have hx := (le_div_iff₀ (two_zpow_pos e)).1 hy
  linarith

theorem Near.pos (hm : 0 < m) (h : Near m e x) : 0 < x :=
  lt_of_lt_of_le (half_pos (two_zpow_pos e)) (h.half_le hm)

/-- What is rounded to a double is in the range of decimals that are looked at. -/
theorem Near.range (hN : Normal m e) (hm : 0 < m) (h : Near m e x) :
    (10 : ℚ) ^ (-330 : Int) < x ∧ x < 10 ^ (310 : Int) := by
  constructor
  · have hunit : (2 : ℚ) ^ (-1074 : Int) ≤ 2 ^ e := zpow_le_zpow_right₀ (by norm_num) hN.least
    have hpow : (10 : ℚ) ^ (-330 : Int) < 2 ^ (-1074 : Int) / 2 := by
      have hnat : 2 ^ 1074 * 2 < 10 ^ 330 := by decide +kernel
      have hrat : ((2 ^ 1074 * 2 : ℕ) : ℚ) < (10 ^ 330 : ℕ) := Nat.cast_lt.2 hnat
      have hpos : (0 : ℚ) < 2 ^ 1074 * 2 := mul_pos (pow_pos two_pos 1074) two_pos
      rw [Nat.cast_mul, Nat.cast_pow, Nat.cast_pow] at hrat
      rw [zpow_neg, zpow_neg, ← one_div, ← one_div, div_div]
      exact one_div_lt_one_div_of_lt hpos hrat
    linarith [h.half_le hm]
  · have hunit : (2 : ℚ) ^ e ≤ 2 ^ (971 : Int) := zpow_le_zpow_right₀ (by norm_num) hN.greatest
    have hlt : (m : ℚ) + 1 ≤ 2 ^ 53 := by exact_mod_cast hN.lt
    have hpow : (2 : ℚ) ^ 53 * 2 ^ (971 : Int) < 10 ^ (310 : Int) := by
      have hnat : 2 ^ 53 * 2 ^ 971 < 10 ^ 310 := by decide +kernel
      exact_mod_cast hnat
    have hx : x ≤ (m + 1 / 2) * 2 ^ e := (div_le_iff₀ (two_zpow_pos e)).1 h.scaled.2.1
    have hle : ((m : ℚ) + 1 / 2) * 2 ^ e ≤ 2 ^ 53 * 2 ^ (971 : Int) :=
      mul_le_mul (by linarith) hunit (two_zpow_pos e).le (by positivity)
    exact lt_of_le_of_lt (hx.trans hle) hpow

/-- A decimal that is near to a double is read as it. -/
theorem ofDecimal_of_near {digits : Nat} {exponent : Int} (hN : Normal m e) (hm : 0 < m)
    (h : Near m e (digits * 10 ^ exponent)) (neg : Bool) : ofDecimal neg digits exponent = .finite neg m e := by
  have hten : (0 : ℚ) < 10 ^ exponent := zpow_pos (by norm_num) exponent
  have hdigits : 0 < digits := by
    have hpos := (pos_iff_pos_of_mul_pos (h.pos hm)).2 hten
    exact_mod_cast hpos
  obtain ⟨hlow, hhigh⟩ := h.range hN hm
  have hten_le : (10 : ℚ) ^ (((Nat.toDigits 10 digits).length : Int) - 1) ≤ digits := by
    have hle := Text.pow_length_ofNat_le hdigits
    have hlen : ((Nat.toDigits 10 digits).length : Int) - 1 = ((Nat.toDigits 10 digits).length - 1 : Nat) := by
      have := Nat.length_toDigits_pos (b := 10) (n := digits)
      omega
    rw [hlen, zpow_natCast]
    exact_mod_cast hle
  have hlt_ten : (digits : ℚ) < 10 ^ ((Nat.toDigits 10 digits).length : Int) := by
    rw [zpow_natCast]
    exact_mod_cast Text.lt_pow_length_ofNat digits
  have hsmall : ¬ ((Nat.toDigits 10 digits).length + exponent < -330) := by
    intro hsize
    have hpow : (10 : ℚ) ^ ((Nat.toDigits 10 digits).length + exponent) ≤ 10 ^ (-330 : Int) :=
      zpow_le_zpow_right₀ (by norm_num) hsize.le
    rw [zpow_add₀ (by norm_num)] at hpow
    linarith [mul_lt_mul_of_pos_right hlt_ten hten]
  have hlarge : ¬ (310 < (Nat.toDigits 10 digits).length + exponent) := by
    intro hsize
    have hpow : (10 : ℚ) ^ (310 : Int) ≤ 10 ^ (((Nat.toDigits 10 digits).length : Int) - 1 + exponent) :=
      zpow_le_zpow_right₀ (by norm_num) (by omega)
    rw [zpow_add₀ (by norm_num)] at hpow
    linarith [mul_le_mul_of_nonneg_right hten_le hten.le]
  have hratio : ((digits * powTen exponent.toNat : Nat) : ℚ) / (powTen (-exponent).toNat : Nat) =
      digits * 10 ^ exponent := by
    rw [zpow_eq_div 10 exponent, powTen_eq, powTen_eq]
    push_cast
    ring
  rw [← hratio] at h
  simp only [ofDecimal, hsmall, or_false, if_neg hdigits.ne', if_neg hlarge]
  exact ofRatio_of_near hN (Nat.mul_pos hdigits (Nat.pow_pos (by decide))) (Nat.pow_pos (by decide)) h neg

end

end Double

end DocPages
