import DocPages.Json.Reader
import DocPages.Proofs.Number.Shortest

/-!
# Numbers read back

A number is read up to the first character that cannot go on with it. The written form of a double always has a
point or an exponent, so it is read as a double again, and as the same one, since what is read is rounded to it.
-/

namespace DocPages.Json

open Text

/-- What follows does not go on with a number. -/
def Stops (t : Text) : Prop := ∀ c ∈ t.head?, c.isDigit = false ∧ c ∉ ['.', 'e', 'E']

/-- The digits in front of a point: a single zero, or no zero in front. -/
structure Whole (w : Text) : Prop where
  ne_nil : w ≠ []
  digits : ∀ c ∈ w, c.isDigit = true
  zero : w = ['0'] ∨ w.head? ≠ some '0'

theorem whole_ofNat (n : Nat) : Whole (ofNat n) where
  ne_nil := Nat.toDigits_ne_nil
  digits := fun _ h => isDigit_of_mem_ofNat h
  zero := by
    rcases Nat.eq_zero_or_pos n with rfl | h
    · exact .inl rfl
    · exact .inr (head?_ofNat h)

/-- The digits in front of something else. -/
theorem digits_append {w t : Text} (hw : ∀ c ∈ w, c.isDigit = true) (ht : ∀ c ∈ t.head?, c.isDigit = false) :
    Json.digits (w ++ t) = (w, t) := by
  have hfront : t.takeWhile Char.isDigit = [] ∧ t.dropWhile Char.isDigit = t := by
    cases t with
    | nil => exact ⟨rfl, rfl⟩
    | cons c t => simp [ht c rfl]
  rw [Json.digits, List.takeWhile_append_of_pos hw, List.dropWhile_append_of_pos hw, hfront.1, hfront.2,
    List.append_nil]

/-- The whole part of a number. -/
def readWhole (t : Text) : Option (Text × Text) :=
  match t with
  | '0' :: t => some (['0'], t)
  | t => match Json.digits t with
    | ([], _) => none
    | (ds, rest) => some (ds, rest)

theorem readWhole_append {w t : Text} (hw : Whole w) (ht : ∀ c ∈ t.head?, c.isDigit = false) :
    readWhole (w ++ t) = some (w, t) := by
  rcases hw.zero with rfl | hzero
  · rfl
  · have hread := digits_append hw.digits ht
    obtain ⟨c, w, rfl⟩ := List.exists_cons_of_ne_nil hw.ne_nil
    have hc : c ≠ '0' := fun hc => hzero (by simp [hc])
    unfold readWhole
    split
    · rename_i heq
      exact absurd (List.cons.inj heq).1 hc
    · rw [hread]

/-- A number without its sign is a whole part, a fraction and an exponent. -/
theorem readUnsigned_eq (neg : Bool) {w t : Text} (hw : Whole w) (ht : ∀ c ∈ t.head?, c.isDigit = false) :
    readUnsigned neg (w ++ t) =
      match exponent? (fraction t).2 with
      | some (e, rest) =>
        some (.double (.ofDecimal neg (digitsValue (w ++ (fraction t).1)) (e - (fraction t).1.length)), rest)
      | none =>
        if (fraction t).1.isEmpty then
          let n : Int := digitsValue w
          some (.int (if neg then -n else n), (fraction t).2)
        else some (.double (.ofDecimal neg (digitsValue (w ++ (fraction t).1)) (-(fraction t).1.length)),
          (fraction t).2) := by
  have hread := readWhole_append hw ht
  change (readWhole (w ++ t)).map _ = _
  rw [hread]
  simp only [Option.map_some]
  cases exponent? (fraction t).2 with
  | some read => rfl
  | none =>
    dsimp only
    split <;> rfl

/-! ## Fractions and exponents -/

theorem fraction_point {fs t : Text} (hne : fs ≠ []) (hfs : ∀ c ∈ fs, c.isDigit = true)
    (ht : ∀ c ∈ t.head?, c.isDigit = false) : fraction ('.' :: (fs ++ t)) = (fs, t) := by
  have hread := digits_append hfs ht
  obtain ⟨c, fs, rfl⟩ := List.exists_cons_of_ne_nil hne
  rw [fraction, hread]

theorem fraction_of_head {t : Text} (h : t.head? ≠ some '.') : fraction t = ([], t) := by
  unfold fraction
  split
  · exact absurd rfl h
  · rfl

theorem exponent?_of_head {t : Text} (h : ∀ c ∈ t.head?, c ∉ ['e', 'E']) : exponent? t = none := by
  cases t with
  | nil => rfl
  | cons c t =>
    have hc : ¬ (c = 'e' ∨ c = 'E') := by simpa using h c rfl
    simp only [exponent?, if_neg hc]

/-- The digits of an exponent with its sign. -/
def signed (neg : Bool) (es : Text) : Text := (if neg then '-' else '+') :: es

theorem exponent?_signed (neg : Bool) {es t : Text} (hne : es ≠ []) (hes : ∀ c ∈ es, c.isDigit = true)
    (ht : ∀ c ∈ t.head?, c.isDigit = false) : exponent? ('e' :: (signed neg es ++ t)) =
      some (if neg then -(digitsValue es : Int) else digitsValue es, t) := by
  have hread := digits_append hes ht
  obtain ⟨c, es, rfl⟩ := List.exists_cons_of_ne_nil hne
  have hunsigned : exponent? ('e' :: (signed false (c :: es) ++ t)) = some ((digitsValue (c :: es) : Int), t) := by
    change (match Json.digits (c :: es ++ t) with
      | ([], _) => none
      | (ds, rest) => some ((digitsValue ds : Int), rest)) = _
    rw [hread]
  cases neg with
  | false => exact hunsigned
  | true =>
    change (exponent? ('e' :: (signed false (c :: es) ++ t))).map (fun p => (-p.1, p.2)) = _
    rw [hunsigned]
    rfl

section
variable {w fs es rest : Text}

/-- A number with a point. -/
theorem readUnsigned_point (neg : Bool) (hw : Whole w) (hne : fs ≠ []) (hfs : ∀ c ∈ fs, c.isDigit = true)
    (hrest : Stops rest) : readUnsigned neg (w ++ '.' :: (fs ++ rest)) =
      some (.double (.ofDecimal neg (digitsValue (w ++ fs)) (-fs.length)), rest) := by
  have hfraction := fraction_point hne hfs fun c hc => (hrest c hc).1
  have hexponent : exponent? rest = none := exponent?_of_head fun c hc he => (hrest c hc).2 (by simp_all)
  rw [readUnsigned_eq neg hw (by simp), hfraction]
  simp [hexponent, hne]

/-- A number with an exponent. -/
theorem readUnsigned_exponent (neg sign : Bool) (hw : Whole w) (hne : es ≠ []) (hes : ∀ c ∈ es, c.isDigit = true)
    (hrest : Stops rest) : readUnsigned neg (w ++ 'e' :: (signed sign es ++ rest)) =
      some (.double (.ofDecimal neg (digitsValue w) (if sign then -(digitsValue es : Int) else digitsValue es)), rest) := by
  have hexponent := exponent?_signed sign hne hes fun c hc => (hrest c hc).1
  rw [readUnsigned_eq neg hw (by simp), fraction_of_head (by simp)]
  simp [hexponent]

/-- A number with a point and an exponent. -/
theorem readUnsigned_point_exponent (neg sign : Bool) (hw : Whole w) (hfs_ne : fs ≠ [])
    (hfs : ∀ c ∈ fs, c.isDigit = true) (hne : es ≠ []) (hes : ∀ c ∈ es, c.isDigit = true)
    (hrest : Stops rest) : readUnsigned neg (w ++ '.' :: (fs ++ 'e' :: (signed sign es ++ rest))) =
      some (.double (.ofDecimal neg (digitsValue (w ++ fs))
        ((if sign then -(digitsValue es : Int) else digitsValue es) - fs.length)), rest) := by
  have hexponent := exponent?_signed sign hne hes fun c hc => (hrest c hc).1
  have hfraction := fraction_point (t := 'e' :: (signed sign es ++ rest)) hfs_ne hfs (by simp)
  rw [readUnsigned_eq neg hw (by simp), hfraction]
  simp [hexponent]

end

/-! ## The written form of a double -/

section
variable {d : Decimal} {rest : Text}

theorem isDigit_of_mem_zeros {n : Nat} {c : Char} (h : c ∈ List.replicate n '0') : c.isDigit = true := by
  rw [List.eq_of_mem_replicate h]
  rfl

theorem zeros_append_digits {n m : Nat} : ∀ c ∈ List.replicate n '0' ++ ofNat m, c.isDigit = true := by
  intro c hc
  rcases List.mem_append.1 hc with hc | hc
  · exact isDigit_of_mem_zeros hc
  · exact isDigit_of_mem_ofNat hc

theorem digitsValue_zeros_append (n m : Nat) : digitsValue (List.replicate n '0' ++ ofNat m) = m := by
  rw [digitsValue_append, digitsValue_zeros, digitsValue_ofNat]
  simp

/-- The digits of a positive number up to some place. -/
theorem whole_take {n k : Nat} (hn : 0 < n) (hk : 0 < k) : Whole ((ofNat n).take k) where
  ne_nil := by
    have hne : ofNat n ≠ [] := Nat.toDigits_ne_nil
    simp [hne, Nat.ne_of_gt hk]
  digits := fun _ h => isDigit_of_mem_ofNat (List.mem_of_mem_take h)
  zero := by
    have hhead := head?_ofNat hn
    exact .inr (by simpa [List.head?_take, Nat.ne_of_gt hk] using hhead)

/-- Some digits behind the point, and zeros in front of them. -/
theorem readUnsigned_small (neg : Bool) (hrest : Stops rest) (hlow : -4 < ((ofNat d.digits).length : Int) + d.exponent)
    (hpoint : ((ofNat d.digits).length : Int) + d.exponent ≤ 0) :
    readUnsigned neg (d.text ++ rest) = some (.double (.ofDecimal neg d.digits d.exponent), rest) := by
  generalize hz : (-(((ofNat d.digits).length : Int) + d.exponent)).toNat = z
  have htext : d.text = ['0'] ++ '.' :: (List.replicate z '0' ++ ofNat d.digits) := by
    simp only [Decimal.text]
    rw [if_pos (by omega), if_pos hpoint, hz]
    rfl
  have hne : List.replicate z '0' ++ ofNat d.digits ≠ [] := by
    have hne : ofNat d.digits ≠ [] := Nat.toDigits_ne_nil
    simp [hne]
  have hread := readUnsigned_point neg (whole_ofNat 0) hne zeros_append_digits hrest
  have hvalue : digitsValue (['0'] ++ (List.replicate z '0' ++ ofNat d.digits)) = d.digits := by
    rw [digitsValue_append, digitsValue_zeros_append]
    simp [digitsValue]
  have hexp : -((List.replicate z '0' ++ ofNat d.digits).length : Int) = d.exponent := by
    simp
    omega
  have hzero : ofNat 0 = ['0'] := rfl
  rw [hzero, hvalue, hexp] at hread
  rw [htext]
  simpa using hread

/-- All digits in front of the point, and zeros behind them. -/
theorem readUnsigned_large (neg : Bool) (hd : 0 < d.digits) (hrest : Stops rest)
    (hhigh : ((ofNat d.digits).length : Int) + d.exponent ≤ 16) (hexp : 0 ≤ d.exponent) :
    readUnsigned neg (d.text ++ rest) =
      some (.double (.ofDecimal neg (d.digits * 10 ^ (d.exponent.toNat + 1)) (-1)), rest) := by
  have hne : ofNat d.digits ≠ [] := Nat.toDigits_ne_nil
  have hlen : 0 < (ofNat d.digits).length := List.length_pos_iff.2 hne
  have htext : d.text = ofNat d.digits ++ List.replicate d.exponent.toNat '0' ++ '.' :: ['0'] := by
    simp only [Decimal.text]
    rw [if_pos (by omega), if_neg (by omega), if_pos (by omega), add_sub_cancel_left]
    rfl
  have hw : Whole (ofNat d.digits ++ List.replicate d.exponent.toNat '0') :=
    { ne_nil := by simp [hne]
      digits := fun c hc => (List.mem_append.1 hc).elim isDigit_of_mem_ofNat isDigit_of_mem_zeros
      zero := .inr (by rw [List.head?_append_of_ne_nil _ hne]; exact head?_ofNat hd) }
  have hread := readUnsigned_point neg hw (List.cons_ne_nil '0' []) (by simp) hrest
  have hvalue : digitsValue (ofNat d.digits ++ List.replicate d.exponent.toNat '0' ++ ['0']) =
      d.digits * 10 ^ (d.exponent.toNat + 1) := by
    rw [digitsValue_append, digitsValue_append, digitsValue_zeros, digitsValue_ofNat, List.length_replicate]
    simp [digitsValue, Nat.pow_succ, Nat.mul_assoc]
  rw [hvalue] at hread
  rw [htext]
  simpa using hread

/-- The point among the digits. -/
theorem readUnsigned_middle (neg : Bool) (hd : 0 < d.digits) (hrest : Stops rest)
    (hlow : 0 < ((ofNat d.digits).length : Int) + d.exponent)
    (hhigh : ((ofNat d.digits).length : Int) + d.exponent ≤ 16) (hexp : d.exponent < 0) :
    readUnsigned neg (d.text ++ rest) = some (.double (.ofDecimal neg d.digits d.exponent), rest) := by
  generalize hp : (((ofNat d.digits).length : Int) + d.exponent).toNat = p
  have htext : d.text = (ofNat d.digits).take p ++ '.' :: (ofNat d.digits).drop p := by
    simp only [Decimal.text]
    rw [if_pos (by omega), if_neg (by omega), if_neg (by omega), hp]
    simp
  have hne : (ofNat d.digits).drop p ≠ [] := by
    rw [ne_eq, List.drop_eq_nil_iff]
    omega
  have hread := readUnsigned_point neg (whole_take (k := p) hd (by omega)) hne
    (fun c hc => isDigit_of_mem_ofNat (List.mem_of_mem_drop hc)) hrest
  have hexp : -(((ofNat d.digits).drop p).length : Int) = d.exponent := by
    rw [List.length_drop]
    omega
  rw [List.take_append_drop, digitsValue_ofNat, hexp] at hread
  rw [htext]
  simpa using hread

/-- One digit in front of the point, and an exponent. -/
theorem readUnsigned_scientific (neg : Bool) (hd : 0 < d.digits) (hrest : Stops rest)
    (hout : ¬ (-4 < ((ofNat d.digits).length : Int) + d.exponent ∧
      ((ofNat d.digits).length : Int) + d.exponent ≤ 16)) :
    readUnsigned neg (d.text ++ rest) = some (.double (.ofDecimal neg d.digits d.exponent), rest) := by
  generalize hp : ((ofNat d.digits).length : Int) + d.exponent = point at hout
  generalize hz : (2 - ((ofNat (point - 1).natAbs).length : Int)).toNat = z
  generalize hes : List.replicate z '0' ++ ofNat (point - 1).natAbs = es
  have hdigits : ∀ c ∈ es, c.isDigit = true := hes ▸ zeros_append_digits
  have hne : es ≠ [] := by
    have hne : ofNat (point - 1).natAbs ≠ [] := Nat.toDigits_ne_nil
    simp [← hes, hne]
  have hsigned : (if (decide (point < 1)) = true then -(digitsValue es : Int) else digitsValue es) = point - 1 := by
    rw [← hes, digitsValue_zeros_append]
    simp only [decide_eq_true_eq]
    split <;> omega
  have htext : d.text = (ofNat d.digits).take 1 ++
      ((if (ofNat d.digits).length = 1 then [] else '.' :: (ofNat d.digits).drop 1) ++
        'e' :: signed (decide (point < 1)) es) := by
    simp only [Decimal.text, hp, if_neg hout, hz, signed, ← hes]
    by_cases h : point < 1 <;> simp [h]
  have hlen : 0 < (ofNat d.digits).length := List.length_pos_iff.2 Nat.toDigits_ne_nil
  have hw : Whole ((ofNat d.digits).take 1) := whole_take hd (by decide)
  rw [htext]
  by_cases hone : (ofNat d.digits).length = 1
  · have hread := readUnsigned_exponent neg (decide (point < 1)) hw hne hdigits hrest
    rw [hsigned, show (ofNat d.digits).take 1 = ofNat d.digits from List.take_of_length_le (by omega),
      digitsValue_ofNat, show point - 1 = d.exponent by omega] at hread
    rw [if_pos hone, show (ofNat d.digits).take 1 = ofNat d.digits from List.take_of_length_le (by omega)]
    simpa using hread
  · have hfs : (ofNat d.digits).drop 1 ≠ [] := by
      rw [ne_eq, List.drop_eq_nil_iff]
      omega
    have hread := readUnsigned_point_exponent neg (decide (point < 1)) hw hfs
      (fun c hc => isDigit_of_mem_ofNat (List.mem_of_mem_drop hc)) hne hdigits hrest
    have hexp : point - 1 - (((ofNat d.digits).drop 1).length : Int) = d.exponent := by
      rw [List.length_drop]
      omega
    rw [hsigned, List.take_append_drop, digitsValue_ofNat, hexp] at hread
    rw [if_neg hone]
    simpa using hread

/-- The written form of a decimal is read as a number of the same value. -/
theorem readUnsigned_text (neg : Bool) (hd : 0 < d.digits) (hrest : Stops rest) :
    ∃ (n : Nat) (x : Int), (n : ℚ) * 10 ^ x = d.value ∧
      readUnsigned neg (d.text ++ rest) = some (.double (.ofDecimal neg n x), rest) := by
  by_cases hout : -4 < ((ofNat d.digits).length : Int) + d.exponent ∧
      ((ofNat d.digits).length : Int) + d.exponent ≤ 16
  · rcases lt_or_ge 0 (((ofNat d.digits).length : Int) + d.exponent) with hpoint | hpoint
    · rcases lt_or_ge d.exponent 0 with hexp | hexp
      · exact ⟨d.digits, d.exponent, rfl, readUnsigned_middle neg hd hrest hpoint hout.2 hexp⟩
      · refine ⟨_, -1, ?_, readUnsigned_large neg hd hrest hout.2 hexp⟩
        obtain ⟨k, hk⟩ := Int.eq_ofNat_of_zero_le hexp
        rw [Decimal.value, hk]
        push_cast
        rw [Int.toNat_natCast, zpow_natCast, pow_succ]
        norm_num
        ring
    · exact ⟨d.digits, d.exponent, rfl, readUnsigned_small neg hrest hout.1 hpoint⟩
  · exact ⟨d.digits, d.exponent, rfl, readUnsigned_scientific neg hd hrest hout⟩

end

/-! ## Numbers with a sign -/

theorem digit_of_readUnsigned {neg : Bool} {t : Text} {p : Json × Text} (h : readUnsigned neg t = some p) :
    ∃ c u, t = c :: u ∧ c.isDigit = true := by
  unfold readUnsigned at h
  obtain ⟨q, hq, -⟩ := Option.map_eq_some_iff.1 h
  split at hq
  · exact ⟨'0', _, rfl, rfl⟩
  · cases t with
    | nil => simp [Json.digits] at hq
    | cons c t =>
      by_cases hc : c.isDigit = true
      · exact ⟨c, t, rfl, hc⟩
      · simp [Json.digits, hc] at hq

/-- A number is read behind its sign. -/
theorem readAtom_sign {neg : Bool} {t : Text} {p : Json × Text} (h : readUnsigned neg t = some p) :
    readAtom (if neg then '-' :: t else t) = some p := by
  obtain ⟨c, u, rfl, hc⟩ := digit_of_readUnsigned h
  have hne : ∀ d : Char, d.isDigit = false → c ≠ d := by
    rintro d hd rfl
    rw [hc] at hd
    cases hd
  cases neg with
  | true =>
    have hinf : c ≠ 'I' := hne 'I' rfl
    rw [← h]
    simp [readAtom, hinf]
  | false =>
    have hn : c ≠ 'n' := hne 'n' rfl
    have ht : c ≠ 't' := hne 't' rfl
    have hf : c ≠ 'f' := hne 'f' rfl
    have hnan : c ≠ 'N' := hne 'N' rfl
    have hinf : c ≠ 'I' := hne 'I' rfl
    have hminus : c ≠ '-' := hne '-' rfl
    rw [← h]
    simp [readAtom, hn, ht, hf, hnan, hinf, hminus]

section
variable {rest : Text}

theorem readUnsigned_ofNat (neg : Bool) (n : Nat) (hrest : Stops rest) :
    readUnsigned neg (ofNat n ++ rest) = some (.int (if neg then -(n : Int) else n), rest) := by
  have hfraction : fraction rest = ([], rest) := fraction_of_head fun h => (hrest '.' h).2 (by simp)
  have hexponent : exponent? rest = none := exponent?_of_head fun c hc he => (hrest c hc).2 (by simp_all)
  rw [readUnsigned_eq neg (whole_ofNat n) fun c hc => (hrest c hc).1, hfraction]
  simp [hexponent, digitsValue_ofNat]

theorem readAtom_ofInt (n : Int) (hrest : Stops rest) : readAtom (ofInt n ++ rest) = some (.int n, rest) := by
  cases n with
  | ofNat n => exact readAtom_sign (readUnsigned_ofNat false n hrest)
  | negSucc n => exact readAtom_sign (readUnsigned_ofNat true (n + 1) hrest)

theorem readUnsigned_finite (neg : Bool) {m : Nat} {e : Int} (h : Double.Normal m e) (hrest : Stops rest) :
    readUnsigned neg ((if m = 0 then "0.0".toList else (Decimal.shortest m e).text) ++ rest) =
      some (.double (.finite neg m e), rest) := by
  by_cases hm : m = 0
  · have hleast : e = -1074 := h.full.resolve_right (by rw [hm]; decide)
    have hdigits : ∀ c ∈ ['0'], c.isDigit = true := by simp
    rw [if_pos hm, hm, hleast]
    exact readUnsigned_point neg (whole_ofNat 0) (List.cons_ne_nil '0' []) hdigits hrest
  · have hpos : 0 < m := Nat.pos_of_ne_zero hm
    have hnear := Decimal.near_shortest h hpos
    have hdigits : 0 < (Decimal.shortest m e).digits := by
      refine Nat.pos_of_ne_zero fun hzero => ?_
      have hvalue := hnear.pos hpos
      simp [Decimal.value, hzero] at hvalue
    obtain ⟨n, x, hvalue, hread⟩ := readUnsigned_text neg hdigits hrest
    rw [← hvalue] at hnear
    rw [if_neg hm, hread, Double.ofDecimal_of_near h hpos hnear]

/-- A double is read back from its written form. -/
theorem readAtom_double {x : Double} (h : x.Proper) (hrest : Stops rest) :
    readAtom (x.text "NaN" "Infinity" ++ rest) = some (.double x, rest) := by
  cases x with
  | nan =>
    have hword := congrArg (Option.map fun rest => (Json.double .nan, rest)) (after?_append "NaN" rest)
    exact hword
  | infinite neg =>
    cases neg with
    | true =>
      have hword := congrArg (Option.map fun rest => (Json.double (.infinite true), rest))
        (after?_append "-Infinity" rest)
      exact hword
    | false =>
      have hword := congrArg (Option.map fun rest => (Json.double (.infinite false), rest))
        (after?_append "Infinity" rest)
      exact hword
  | finite neg m e =>
    have hread := readAtom_sign (readUnsigned_finite neg h hrest)
    rw [← hread]
    cases neg <;> rfl

end

end DocPages.Json
