import DocPages.Json.Reader
import Mathlib.Algebra.Group.Nat.Defs
import Mathlib.Data.List.Basic
import Mathlib.Data.List.Induction

/-!
# Numbers in texts

The digits of a number, where they end, and what they stand for.
-/

namespace DocPages.Text

theorem isDigit_of_mem_ofNat {n : Nat} {c : Char} (h : c ∈ ofNat n) : c.isDigit = true :=
  Nat.isDigit_of_mem_toDigits (by decide) (by decide) h

theorem ofNat_injective {m n : Nat} (h : ofNat m = ofNat n) : m = n := by
  have hd := congrArg (fun ds => Nat.ofDigitChars 10 ds 0) h
  simpa [ofNat] using hd

theorem lt_pow_length_ofNat (n : Nat) : n < 10 ^ (ofNat n).length :=
  (Nat.length_toDigits_le_iff (by decide) Nat.length_toDigits_pos).1 (Nat.le_refl _)

/-- A positive number has no digits to spare. -/
theorem pow_length_ofNat_le {n : Nat} (h : 0 < n) : 10 ^ ((ofNat n).length - 1) ≤ n := by
  rcases Nat.eq_zero_or_pos ((ofNat n).length - 1) with hl | hl
  · rw [hl]
    exact h
  · refine Nat.not_lt.1 fun hlt => ?_
    have hle : (ofNat n).length ≤ (ofNat n).length - 1 := (Nat.length_toDigits_le_iff (by decide) hl).2 hlt
    omega

/-- The digits of a number end where no digit follows. -/
theorem takeWhile_ofNat (n : Nat) {t : Text} (h : ∀ c ∈ t.head?, c.isDigit = false) :
    (ofNat n ++ t).takeWhile Char.isDigit = ofNat n := by
  rw [List.takeWhile_append_of_pos (fun c hc => isDigit_of_mem_ofNat hc)]
  cases t with
  | nil => simp
  | cons c t =>
    have hc : c.isDigit = false := h c rfl
    simp [hc]

theorem mem_ofInt {i : Int} {c : Char} (h : c ∈ ofInt i) : c = '-' ∨ c.isDigit = true := by
  cases i with
  | ofNat n => exact .inr (isDigit_of_mem_ofNat h)
  | negSucc n => exact (List.mem_cons.1 h).imp_right isDigit_of_mem_ofNat

theorem digitsValue_ofNat (n : Nat) : Json.digitsValue (ofNat n) = n := by
  have hd : Nat.ofDigitChars 10 (Nat.toDigits 10 n) 0 = n := Nat.ofDigitChars_ten_toDigits
  exact hd

theorem digitsValue_append (s t : Text) :
    Json.digitsValue (s ++ t) = Json.digitsValue s * 10 ^ t.length + Json.digitsValue t := by
  induction t using List.reverseRecOn with
  | nil => simp [Json.digitsValue]
  | append_singleton t c ih =>
    have hlast (u : Text) : Json.digitsValue (u ++ [c]) = 10 * Json.digitsValue u + (c.toNat - 0x30) := by
      simp [Json.digitsValue]
    rw [← List.append_assoc, hlast, hlast, ih, List.length_append, List.length_singleton, Nat.pow_succ]
    grind

theorem digitsValue_zeros (n : Nat) : Json.digitsValue (List.replicate n '0') = 0 := by
  induction n with
  | zero => rfl
  | succ n ih => rw [List.replicate_succ', digitsValue_append, ih]; rfl

/-- A positive number has no zero in front. -/
theorem head?_ofNat {n : Nat} (h : 0 < n) : (ofNat n).head? ≠ some '0' := by
  induction n using Nat.strongRecOn with
  | ind n ih =>
    rcases Nat.lt_or_ge n 10 with hn | hn
    · rw [ofNat, Nat.toDigits_of_lt_base hn]
      simp [Nat.ne_of_gt h]
    · have hfront : (ofNat (n / 10)).head? ≠ some '0' := ih (n / 10) (by omega) (by omega)
      have hne : ofNat (n / 10) ≠ [] := Nat.toDigits_ne_nil
      rw [ofNat, Nat.toDigits_of_base_le (by decide) hn]
      change (ofNat (n / 10) ++ _).head? ≠ some '0'
      rwa [List.head?_append_of_ne_nil _ hne]

/-- The number that digits behind an optional sign stand for. -/
def toInt : Text → Int
  | '-' :: ds => -(Json.digitsValue ds)
  | ds => Json.digitsValue ds

theorem toInt_ofInt (i : Int) : toInt (ofInt i) = i := by
  cases i with
  | ofNat n =>
    have hsign : ∀ ds, ofNat n = '-' :: ds → False := by
      intro ds hds
      have hmem : '-' ∈ ofNat n := by simp [hds]
      exact absurd (isDigit_of_mem_ofNat hmem) (by decide)
    rw [ofInt, toInt.eq_2 _ hsign, digitsValue_ofNat]
    rfl
  | negSucc n =>
    rw [ofInt, toInt, digitsValue_ofNat]
    rfl

end DocPages.Text
