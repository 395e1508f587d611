import DocPages.Proofs.Json.RoundTrip
import DocPages.Proofs.Text.Search

/-!
# Strings in the text of a value

The text of a value has an angle bracket in its strings and names only, and these are written as they are, but
for quotes, backslashes and control characters. So what begins with an angle bracket occurs in the text if and
only if it occurs in a string or a name.
-/

namespace DocPages.Json

open Text

mutual

/-- The strings and names in a value. -/
def texts : Json → List Text
  | .str s => [s]
  | .arr xs => itemTexts xs
  | .obj ms => memberTexts ms
  | _ => []
  termination_by structural v => v

def itemTexts : List Json → List Text
  | [] => []
  | x :: xs => texts x ++ itemTexts xs
  termination_by structural xs => xs

def memberTexts : List (Text × Json) → List Text
  | [] => []
  | (k, v) :: ms => k :: (texts v ++ memberTexts ms)
  termination_by structural ms => ms

end

/-! ## Values without strings -/

theorem lt_notMem_decimal (d : Decimal) : '<' ∉ d.text := by
  have hdigits (n : Nat) : '<' ∉ ofNat n := fun h => absurd (isDigit_of_mem_ofNat h) (by decide)
  have htake (n k : Nat) : '<' ∉ (ofNat n).take k := fun h => hdigits n (List.mem_of_mem_take h)
  have hdrop (n k : Nat) : '<' ∉ (ofNat n).drop k := fun h => hdigits n (List.mem_of_mem_drop h)
  simp only [Decimal.text]
  split
  · split
    · simp [hdigits]
    · split
      · simp [hdigits]
      · simp [htake, hdrop]
  · have htail (n : Nat) : '<' ∉ (ofNat n).tail := fun h => hdigits n (List.mem_of_mem_tail h)
    split <;> split <;> simp [hdigits, htake, htail]

theorem lt_notMem_double (x : Double) : '<' ∉ x.text "NaN" "Infinity" := by
  cases x with
  | nan => exact (by decide : '<' ∉ "NaN".toList)
  | infinite neg =>
    cases neg with
    | true => exact (by decide : '<' ∉ "-Infinity".toList)
    | false => exact (by decide : '<' ∉ "Infinity".toList)
  | finite neg m e =>
    have hunsigned : '<' ∉ (if m = 0 then "0.0".toList else (Decimal.shortest m e).text) := by
      split
      · decide
      · exact lt_notMem_decimal _
    cases neg with
    | true => exact List.not_mem_cons_of_ne_of_not_mem (by decide) hunsigned
    | false => exact hunsigned

theorem lt_notMem_writeAtom {v : Json} (h : v.isAtom = true) (hs : ∀ s, v ≠ .str s) (char : Char → Text) :
    '<' ∉ writeAtom char v := by
  cases v with
  | null => exact (by decide : '<' ∉ "null".toList)
  | bool b =>
    cases b with
    | true => exact (by decide : '<' ∉ "true".toList)
    | false => exact (by decide : '<' ∉ "false".toList)
  | int n =>
    intro hmem
    rcases mem_ofInt hmem with h | h <;> exact absurd h (by decide)
  | double x => exact lt_notMem_double x
  | str s => exact absurd rfl (hs s)
  | arr xs => cases h
  | obj ms => cases h

/-! ## Escapes -/

/-- A character is written as it is, or as an escape without an angle bracket. -/
theorem writeChar_cases (c : Char) : writeChar c = [c] ∨ ∃ e, writeChar c = '\\' :: e ∧ '<' ∉ e := by
  unfold writeChar
  split
  · exact .inr ⟨_, rfl, by decide⟩
  · exact .inr ⟨_, rfl, by decide⟩
  · exact .inr ⟨_, rfl, by decide⟩
  · exact .inr ⟨_, rfl, by decide⟩
  · exact .inr ⟨_, rfl, by decide⟩
  · exact .inr ⟨_, rfl, by decide⟩
  · exact .inr ⟨_, rfl, by decide⟩
  · split
    · have hdigit (k : Nat) : '<' ≠ hexDigit (k % 16) := by
        have hall : ∀ d < 16, '<' ≠ hexDigit d := by decide
        exact hall _ (Nat.mod_lt k (by decide))
      exact .inr ⟨_, rfl, by simp [hex4, hdigit]⟩
    · exact .inl rfl

/-- What is written as it is. -/
theorem writeChar_eq_self_iff (c : Char) : writeChar c = [c] ↔ c ≠ '"' ∧ c ≠ '\\' ∧ 0x20 ≤ c.toNat := by
  unfold writeChar
  split
  · decide
  · decide
  · decide
  · decide
  · decide
  · decide
  · decide
  · rename_i hquote hslash _ _ _ _ _
    split
    · exact iff_of_false (by simp [writeUnit]) (by omega)
    · exact iff_of_true rfl ⟨hquote, hslash, by omega⟩

section
variable {w : Text}

theorem prefix_flatMap_writeChar (hw : '\\' ∉ w) (s : Text) :
    w <+: s.flatMap writeChar ↔ (∀ c ∈ w, writeChar c = [c]) ∧ w <+: s := by
  induction s generalizing w with
  | nil =>
    simp
    rintro rfl
    simp
  | cons c s ih =>
    cases w with
    | nil => simp
    | cons d w =>
      obtain ⟨hd, hw⟩ : '\\' ≠ d ∧ '\\' ∉ w := by simpa using hw
      rw [List.flatMap_cons]
      rcases writeChar_cases c with hc | ⟨e, hc, -⟩
      · rw [hc, List.singleton_append, List.cons_prefix_cons, List.cons_prefix_cons, ih hw, List.forall_mem_cons]
        constructor
        · rintro ⟨rfl, hplain, hpre⟩
          exact ⟨⟨hc, hplain⟩, rfl, hpre⟩
        · rintro ⟨⟨-, hplain⟩, rfl, hpre⟩
          exact ⟨rfl, hplain, hpre⟩
      · rw [hc, List.cons_append, List.cons_prefix_cons, List.cons_prefix_cons]
        constructor
        · rintro ⟨rfl, -⟩
          exact absurd rfl hd
        · rintro ⟨hplain, rfl, -⟩
          have hd' := hplain d (by simp)
          rw [hc] at hd'
          exact absurd (List.cons.inj hd').1 hd

theorem infix_flatMap_writeChar (hw : '\\' ∉ w) (s : Text) :
    '<' :: w <:+: s.flatMap writeChar ↔ (∀ c ∈ w, writeChar c = [c]) ∧ '<' :: w <:+: s := by
  have hlt : writeChar '<' = ['<'] := rfl
  have hstart : '\\' ∉ '<' :: w := by simpa using hw
  induction s with
  | nil => simp
  | cons c s ih =>
    rcases writeChar_cases c with hc | ⟨e, hc, he⟩
    · have hpre := prefix_flatMap_writeChar hstart (c :: s)
      rw [List.flatMap_cons, hc, List.singleton_append] at hpre ⊢
      rw [List.infix_cons_iff, List.infix_cons_iff, hpre, iff_iff_eq.1 ih, List.forall_mem_cons]
      simp only [hlt, true_and]
      exact and_or_left.symm
    · have hne : '<' ≠ c := by
        rintro rfl
        rw [hlt] at hc
        exact absurd (List.cons.inj hc).1 (by decide)
      have hrest : '<' :: w <:+: c :: s ↔ '<' :: w <:+: s := by
        simp [List.infix_cons_iff, List.cons_prefix_cons, hne]
      have hesc : '<' :: w <:+: '\\' :: e ++ s.flatMap writeChar ↔ '<' :: w <:+: s.flatMap writeChar :=
        ⟨infix_of_append (by simpa using he), fun h => h.trans (List.suffix_append _ _).isInfix⟩
      rw [List.flatMap_cons, hc, hesc, hrest]
      exact ih

/-! ## The whole text -/

theorem infix_append_iff {s t : Text} (h : '<' ∉ s) : '<' :: w <:+: s ++ t ↔ '<' :: w <:+: t :=
  ⟨infix_of_append h, fun ht => ht.trans (List.suffix_append s t).isInfix⟩

theorem lt_notMem_blank {b : Text} (h : Blank b) : '<' ∉ b := fun hmem => absurd (h _ hmem) (by decide)

/-- An angle bracket with what follows it occurs in one of the strings, and is written there as it is. -/
def Verbatim (w : Text) (ss : List Text) : Prop :=
  (∀ c ∈ w, writeChar c = [c]) ∧ ∃ s ∈ ss, '<' :: w <:+: s

theorem verbatim_nil : ¬ Verbatim w [] := by simp [Verbatim]

theorem verbatim_append {ss us : List Text} : Verbatim w (ss ++ us) ↔ Verbatim w ss ∨ Verbatim w us := by
  simp only [Verbatim, List.mem_append, or_and_right, exists_or, and_or_left]

theorem verbatim_cons {s : Text} {ss : List Text} : Verbatim w (s :: ss) ↔ Verbatim w [s] ∨ Verbatim w ss :=
  @verbatim_append w [s] ss

theorem infix_writeString (hslash : '\\' ∉ w) (hquote : '"' ∉ w) (s t : Text) :
    '<' :: w <:+: writeString writeChar s ++ t ↔ Verbatim w [s] ∨ '<' :: w <:+: t := by
  have hmark : '"' ∉ '<' :: w := by simpa using hquote
  have htext : writeString writeChar s ++ t = ['"'] ++ (s.flatMap writeChar ++ '"' :: t) := by simp [writeString]
  rw [htext, infix_append_iff (by decide), infix_separated hmark, infix_flatMap_writeChar hslash]
  simp [Verbatim]

theorem infix_writeAtom (hslash : '\\' ∉ w) (hquote : '"' ∉ w) {v : Json} (h : v.isAtom = true) (rest : Text) :
    '<' :: w <:+: writeAtom writeChar v ++ rest ↔ Verbatim w (texts v) ∨ '<' :: w <:+: rest := by
  have hother (hv : ∀ s, v ≠ .str s) (htexts : texts v = []) :
      '<' :: w <:+: writeAtom writeChar v ++ rest ↔ Verbatim w (texts v) ∨ '<' :: w <:+: rest := by
    rw [infix_append_iff (lt_notMem_writeAtom h hv writeChar), htexts, or_iff_right verbatim_nil]
  cases v with
  | null => exact hother (fun _ h => by cases h) (by simp [texts])
  | bool b => exact hother (fun _ h => by cases h) (by simp [texts])
  | int n => exact hother (fun _ h => by cases h) (by simp [texts])
  | double x => exact hother (fun _ h => by cases h) (by simp [texts])
  | str s =>
    have htexts : texts (.str s) = [s] := by simp [texts]
    rw [htexts]
    exact infix_writeString hslash hquote s rest
  | arr xs => cases h
  | obj ms => cases h

mutual

/-- An angle bracket with what follows it occurs in the text of a value if and only if it does so in one of its
strings and names. -/
theorem infix_form (hslash : '\\' ∉ w) (hquote : '"' ∉ w) : (v : Json) → ∀ {t : Text}, Form writeChar v t →
    ∀ rest : Text, '<' :: w <:+: t ++ rest ↔ Verbatim w (texts v) ∨ '<' :: w <:+: rest
  | .null, _, .atom h, rest => infix_writeAtom hslash hquote h rest
  | .bool _, _, .atom h, rest => infix_writeAtom hslash hquote h rest
  | .int _, _, .atom h, rest => infix_writeAtom hslash hquote h rest
  | .double _, _, .atom h, rest => infix_writeAtom hslash hquote h rest
  | .str _, _, .atom h, rest => infix_writeAtom hslash hquote h rest
  | .arr xs, t, h, rest => by
    have htexts : texts (.arr xs) = itemTexts xs := by rw [texts]
    rw [htexts]
    cases h with
    | atom ha => cases ha
    | noItems =>
      rw [infix_append_iff (by decide), itemTexts, or_iff_right verbatim_nil]
    | @items _ b u hb hu =>
      have hstart : '<' ∉ '[' :: b := by simp [lt_notMem_blank hb]
      have hread := infix_formItems hslash hquote xs hu rest
      rw [← infix_append_iff hstart] at hread
      simpa using hread
  | .obj ms, t, h, rest => by
    have htexts : texts (.obj ms) = memberTexts ms := by rw [texts]
    rw [htexts]
    cases h with
    | atom ha => cases ha
    | noMembers =>
      rw [infix_append_iff (by decide), memberTexts, or_iff_right verbatim_nil]
    | @members _ b u hb hu =>
      have hstart : '<' ∉ '\x7b' :: b := by simp [lt_notMem_blank hb]
      have hread := infix_formMembers hslash hquote ms hu rest
      rw [← infix_append_iff hstart] at hread
      simpa using hread
  termination_by structural v => v

theorem infix_formItems (hslash : '\\' ∉ w) (hquote : '"' ∉ w) : (xs : List Json) → ∀ {t : Text},
    FormItems writeChar xs t → ∀ rest : Text,
      '<' :: w <:+: t ++ rest ↔ Verbatim w (itemTexts xs) ∨ '<' :: w <:+: rest
  | [], _, h, _ => by cases h
  | x :: xs, t, h, rest => by
    rw [itemTexts, verbatim_append, or_assoc]
    cases h with
    | @last _ u b hx hb =>
      have hend : '<' ∉ b ++ [']'] := by simp [lt_notMem_blank hb]
      have hread := infix_form hslash hquote x hx (b ++ [']'] ++ rest)
      rw [infix_append_iff hend] at hread
      rw [itemTexts, or_iff_right verbatim_nil, ← hread]
      simp
    | @cons _ _ u b u' hx hb hxs =>
      have hsep : '<' ∉ ',' :: b := by simp [lt_notMem_blank hb]
      have hread := infix_form hslash hquote x hx (',' :: b ++ (u' ++ rest))
      rw [infix_append_iff hsep, infix_formItems hslash hquote xs hxs] at hread
      rw [← hread]
      simp
  termination_by structural xs => xs

theorem infix_formMembers (hslash : '\\' ∉ w) (hquote : '"' ∉ w) : (ms : List (Text × Json)) → ∀ {t : Text},
    FormMembers writeChar ms t → ∀ rest : Text,
      '<' :: w <:+: t ++ rest ↔ Verbatim w (memberTexts ms) ∨ '<' :: w <:+: rest
  | [], _, h, _ => by cases h
  | (k, v) :: ms, t, h, rest => by
    have hcolon : '<' ∉ [':', ' '] := by decide
    rw [memberTexts, verbatim_cons, verbatim_append, or_assoc, or_assoc]
    cases h with
    | @last _ _ u b hv hb =>
      have hend : '<' ∉ b ++ ['\x7d'] := by simp [lt_notMem_blank hb]
      have hread := infix_form hslash hquote v hv (b ++ ['\x7d'] ++ rest)
      rw [infix_append_iff hend] at hread
      have hname := infix_writeString hslash hquote k ([':', ' '] ++ (u ++ (b ++ ['\x7d'] ++ rest)))
      rw [infix_append_iff hcolon, hread] at hname
      rw [memberTexts, or_iff_right verbatim_nil, ← hname]
      simp
    | @cons _ _ _ u b u' hv hb hms =>
      have hsep : '<' ∉ ',' :: b := by simp [lt_notMem_blank hb]
      have hread := infix_form hslash hquote v hv (',' :: b ++ (u' ++ rest))
      rw [infix_append_iff hsep, infix_formMembers hslash hquote ms hms] at hread
      have hname := infix_writeString hslash hquote k ([':', ' '] ++ (u ++ (',' :: b ++ (u' ++ rest))))
      rw [infix_append_iff hcolon, hread] at hname
      rw [← hname]
      simp
  termination_by structural ms => ms

end

theorem infix_compact (hslash : '\\' ∉ w) (hquote : '"' ∉ w) (v : Json) (rest : Text) :
    '<' :: w <:+: compact v ++ rest ↔ Verbatim w (texts v) ∨ '<' :: w <:+: rest :=
  infix_form hslash hquote v (form_writeWith v) rest

end

end DocPages.Json
