import DocPages.Text.Class
import Mathlib.Data.List.Induction
import Mathlib.Data.List.TakeWhile

/-!
# Trimming

A text that neither begins nor ends with what is trimmed stays as it is, and trimming the end of a text stops where
a part of it ends with something else. Blanks are neither letters nor digits.
-/

namespace DocPages

theorem toNat_of_isPlainLetter {c : Char} (h : isPlainLetter c = true) : 97 ≤ c.toNat ∧ c.toNat ≤ 122 := by
  simpa [isPlainLetter, Char.le_def, UInt32.le_iff_toNat_le] using h

theorem toNat_of_isAlphanum {c : Char} (h : c.isAlphanum = true) :
    (65 ≤ c.toNat ∧ c.toNat ≤ 90) ∨ (97 ≤ c.toNat ∧ c.toNat ≤ 122) ∨ (48 ≤ c.toNat ∧ c.toNat ≤ 57) := by
  have hclasses : (c.isUpper || c.isLower || c.isDigit) = true := h
  simp only [Bool.or_eq_true, or_assoc] at hclasses
  rcases hclasses with hc | hc | hc
  · have hbounds : ((65 : UInt32) ≤ c.val ∧ c.val ≤ 90) := of_decide_eq_true hc
    exact .inl ⟨UInt32.le_iff_toNat_le.1 hbounds.1, UInt32.le_iff_toNat_le.1 hbounds.2⟩
  · exact .inr (.inl (toNat_of_isPlainLetter hc))
  · exact .inr (.inr (by simpa [Char.isDigit, UInt32.le_iff_toNat_le] using hc))

theorem isAlphanum_of_isBlank {c : Char} (h : isBlank c = true) : c.isAlphanum = false := by
  refine Bool.eq_false_iff.2 fun hc => ?_
  have hrange := toNat_of_isAlphanum hc
  simp only [isBlank, inRanges, List.any_cons, List.any_nil, Bool.or_false, Bool.or_eq_true, Bool.and_eq_true,
    decide_eq_true_eq] at h
  omega

namespace Text

variable {p : Char → Bool}

theorem trimStart_eq_self {t : Text} (h : ∀ c ∈ t.head?, p c = false) : trimStart p t = t := by
  cases t with
  | nil => rfl
  | cons c t =>
    have hc : p c = false := h c rfl
    exact List.dropWhile_cons_of_neg (by simp [hc])

theorem trimEnd_append {s : Text} {c : Char} (h : p c = false) (t : Text) :
    trimEnd p (s ++ c :: t) = s ++ c :: trimEnd p t := by
  have hrest : (t.reverse ++ c :: s.reverse).dropWhile p = t.reverse.dropWhile p ++ c :: s.reverse := by
    induction t.reverse with
    | nil => exact List.dropWhile_cons_of_neg (by simp [h])
    | cons d u ih =>
      by_cases hd : p d = true
      · simp [List.dropWhile, hd, ih]
      · simp [List.dropWhile, hd]
  simp [trimEnd, hrest]

theorem trimEnd_eq_self {t : Text} (h : ∀ c ∈ t.getLast?, p c = false) : trimEnd p t = t := by
  rcases List.eq_nil_or_concat t with rfl | ⟨s, c, rfl⟩
  · rfl
  · have hc : p c = false := h c (by simp)
    have happend := trimEnd_append (s := s) hc []
    simpa [trimEnd] using happend

/-- A character in front is either kept or trimmed with all that follows. -/
theorem trimEnd_cons (c : Char) (t : Text) :
    trimEnd p (c :: t) = c :: trimEnd p t ∨ (trimEnd p (c :: t) = [] ∧ trimEnd p t = []) := by
  simp only [trimEnd, List.reverse_cons, List.dropWhile_append]
  cases hrest : t.reverse.dropWhile p with
  | nil =>
    by_cases hc : p c = true
    · right
      simp [hc]
    · left
      simp [hc]
  | cons d u =>
    left
    simp

/-- What is trimmed in front of a text and behind it, and the rest of it. -/
theorem exists_trim (p : Char → Bool) (t : Text) :
    ∃ a b, (∀ c ∈ a, p c = true) ∧ (∀ c ∈ b, p c = true) ∧ t = a ++ (trim p t ++ b) := by
  refine ⟨t.takeWhile p, ((trimStart p t).reverse.takeWhile p).reverse, fun c hc => List.mem_takeWhile_imp hc,
    fun c hc => List.mem_takeWhile_imp (List.mem_reverse.1 hc), ?_⟩
  have hback : trimStart p t = trim p t ++ ((trimStart p t).reverse.takeWhile p).reverse := by
    rw [trim, trimEnd, ← List.reverse_append, List.takeWhile_append_dropWhile, List.reverse_reverse]
  rw [← hback]
  exact List.takeWhile_append_dropWhile.symm

theorem trim_isInfix (p : Char → Bool) (t : Text) : trim p t <:+: t := by
  have hend : trim p t <+: trimStart p t := by
    have hreverse := List.reverse_prefix.2 (List.dropWhile_suffix p (l := (trimStart p t).reverse))
    rwa [List.reverse_reverse] at hreverse
  exact hend.isInfix.trans (List.dropWhile_suffix p).isInfix

theorem mem_trim {p : Char → Bool} {c : Char} (hc : p c = false) (t : Text) : c ∈ trim p t ↔ c ∈ t := by
  refine ⟨fun hmem => (trim_isInfix p t).subset hmem, fun hmem => ?_⟩
  obtain ⟨a, b, ha, hb, ht⟩ := exists_trim p t
  have hout {s : Text} (hs : ∀ c ∈ s, p c = true) : c ∉ s := fun hmem => by simp [hs c hmem] at hc
  rw [ht] at hmem
  simpa [hout ha, hout hb] using hmem

theorem trim_eq_self {t : Text} (h : ∀ c ∈ t.head?, p c = false) (h' : ∀ c ∈ t.getLast?, p c = false) :
    trim p t = t := by
  rw [trim, trimStart_eq_self h, trimEnd_eq_self h']

theorem trim_eq_nil {t : Text} (h : ∀ c ∈ t, p c = true) : trim p t = [] := by
  have hstart : trimStart p t = [] := List.dropWhile_eq_nil_iff.2 h
  rw [trim, hstart]
  rfl

theorem trim_concat {c : Char} (h : p c = true) (t : Text) : trim p (t ++ [c]) = trim p t := by
  have hend (s : Text) : trimEnd p (s ++ [c]) = trimEnd p s := by simp [trimEnd, h]
  rw [trim, trim, trimStart, trimStart, List.dropWhile_append]
  split
  · next hempty =>
    rw [List.isEmpty_iff.1 hempty]
    simp [h]
  · exact hend _

/-- What is trimmed off around a text that stays as it is. -/
theorem trim_around {a m b : Text} (ha : ∀ c ∈ a, p c = true) (hb : ∀ c ∈ b, p c = true) (hm : trim p m = m) :
    trim p (a ++ (m ++ b)) = m := by
  have hfront (t : Text) : trim p (a ++ t) = trim p t := by
    rw [trim, trimStart, List.dropWhile_append_of_pos ha]
    rfl
  have hback : trim p (m ++ b) = trim p m := by
    induction b using List.reverseRecOn with
    | nil => rw [List.append_nil]
    | append_singleton b c ih =>
      rw [← List.append_assoc, trim_concat (hb c (by simp)), ih fun d hd => hb d (by simp [hd])]
  rw [hfront, hback, hm]

theorem not_of_mem_head?_trimStart {t : Text} {c : Char} (h : c ∈ (trimStart p t).head?) : p c = false := by
  have hhead := List.head?_dropWhile_not p t
  have hfirst : (List.dropWhile p t).head? = some c := h
  rw [hfirst] at hhead
  simpa using hhead

theorem not_of_mem_getLast?_trimEnd {t : Text} {c : Char} (h : c ∈ (trimEnd p t).getLast?) : p c = false := by
  rw [trimEnd, List.getLast?_reverse] at h
  exact not_of_mem_head?_trimStart h

/-- A text stays as it is exactly if it neither begins nor ends with what is trimmed. -/
theorem trim_eq_self_iff {t : Text} :
    trim p t = t ↔ (∀ c ∈ t.head?, p c = false) ∧ ∀ c ∈ t.getLast?, p c = false := by
  refine ⟨fun h => ?_, fun h => trim_eq_self h.1 h.2⟩
  have hend : (trim p t).length ≤ (trimStart p t).length := by
    simpa [trim, trimEnd] using (List.dropWhile_suffix p (l := (trimStart p t).reverse)).length_le
  have hstart : trimStart p t = t :=
    (List.dropWhile_suffix p).eq_of_length_le (by rw [h] at hend; exact hend)
  refine ⟨fun c hc => not_of_mem_head?_trimStart (t := t) (by rwa [hstart]), fun c hc => ?_⟩
  rw [← h] at hc
  exact not_of_mem_getLast?_trimEnd hc

end Text

end DocPages
