import DocPages.Proofs.Json.Reading
import DocPages.Proofs.Json.RoundTrip
import DocPages.Proofs.Text.Breaks

/-!
# Values in texts with other line breaks

Between the tokens of a value a line break is a blank, and inside a token there is none. So texts that differ in
their breaks hold the same value, although the longer of them is read with more fuel: what is read takes no more
fuel than the characters it consists of.
-/

namespace DocPages.Json

open Text

/-- What is read of a text is also read of one with other breaks. -/
def Rereads {α : Type} (read : Reader Char α) : Prop :=
  ∀ s t rest a, read s = some (a, rest) → Likewise s t →
    ∃ rest', Likewise rest rest' ∧ rest'.length < t.length ∧ read t = some (a, rest')

/-! ## Strings -/

theorem ne_break_of_hexValue? {c : Char} {n : Nat} (h : hexValue? c = some n) : c ≠ '\n' ∧ c ≠ '\r' := by
  constructor
  · rintro rfl
    cases h
  · rintro rfl
    cases h

theorem unbroken_of_unit? {a b c d : Char} {n : Nat} (h : unit? a b c d = some n) : Unbroken [a, b, c, d] := by
  simp only [unit?, Option.bind_eq_bind, Option.bind_eq_some_iff] at h
  obtain ⟨_, ha, _, hb, _, hc, _, hd, -⟩ := h
  have hall : ∀ e ∈ [a, b, c, d], e ≠ '\n' ∧ e ≠ '\r' := by
    simp only [List.forall_mem_cons]
    exact ⟨ne_break_of_hexValue? ha, ne_break_of_hexValue? hb, ne_break_of_hexValue? hc, ne_break_of_hexValue? hd,
      by simp⟩
  exact ⟨fun h => (hall _ h).1 rfl, fun h => (hall _ h).2 rfl⟩

/-- The front of an escape by code unit. -/
def unitText (a b c d : Char) : Text := ['\\', 'u', a, b, c, d]

theorem unbroken_unitText {a b c d : Char} {n : Nat} (h : unit? a b c d = some n) : Unbroken (unitText a b c d) := by
  have hunit := unbroken_of_unit? h
  simpa [unitText, Unbroken] using hunit

/-- A code unit in front of anything else than another escape by code unit. -/
theorem readString_single {a b c d : Char} {n : Nat} (hunit : unit? a b c d = some n) {t : Text}
    (ht : ∀ a' b' c' d' u, t ≠ unitText a' b' c' d' ++ u) :
    readString (unitText a b c d ++ t) = behindChar (Char.ofNat n) (readString t) := by
  have hread := readString.eq_3 a b c d t fun a' b' c' d' u hu => ht a' b' c' d' u hu
  refine hread.trans ?_
  rw [hunit]
  generalize readString t = r
  cases r <;> rfl

/-- A code unit that may open a pair of surrogates in front of another. -/
theorem readString_pair {a b c d : Char} {n : Nat} (hunit : unit? a b c d = some n) (hhigh : 0xd800 ≤ n ∧ n < 0xdc00)
    (a' b' c' d' : Char) (t : Text) :
    readString (unitText a b c d ++ (unitText a' b' c' d' ++ t)) =
      (unit? a' b' c' d').bind fun lo =>
        if 0xdc00 ≤ lo ∧ lo < 0xe000 then behindChar (joinUnits n lo) (readString t)
        else behindChar (Char.ofNat n) (readString (unitText a' b' c' d' ++ t)) := by
  refine (readString.eq_2 a b c d a' b' c' d' t).trans ?_
  have hfront : unitText a' b' c' d' ++ t = '\\' :: 'u' :: a' :: b' :: c' :: d' :: t := rfl
  rw [hunit, hfront]
  generalize readString t = r
  generalize readString ('\\' :: 'u' :: a' :: b' :: c' :: d' :: t) = r'
  simp only [Option.bind_eq_bind, Option.bind_some, if_pos hhigh]
  cases unit? a' b' c' d' with
  | none => rfl
  | some lo =>
    simp only [Option.bind_some]
    split
    · cases r <;> rfl
    · cases r' <;> rfl

/-- An escape that is read has a code unit for its digits. -/
theorem exists_unit {a b c d : Char} {t : Text} {p : Text × Text} (h : readString (unitText a b c d ++ t) = some p) :
    ∃ n, unit? a b c d = some n := by
  cases hunit : unit? a b c d with
  | some n => exact ⟨n, rfl⟩
  | none =>
    have hnone : readString (unitText a b c d ++ t) = none := by
      by_cases ht : ∃ a' b' c' d' u, t = unitText a' b' c' d' ++ u
      · obtain ⟨a', b', c', d', u, rfl⟩ := ht
        refine (readString.eq_2 a b c d a' b' c' d' u).trans ?_
        rw [hunit]
        rfl
      · refine (readString.eq_3 a b c d t fun a' b' c' d' u hu => ht ⟨a', b', c', d', u, hu⟩).trans ?_
        rw [hunit]
        rfl
    rw [hnone] at h
    cases h

/-- An escape by code unit that is cut off is not read. -/
theorem readString_cut {s : Text} (hs : ∀ a b c d u, '\\' :: 'u' :: s ≠ unitText a b c d ++ u) :
    readString ('\\' :: 'u' :: s) = none := by
  rw [readString.eq_4 'u' s (fun a b c d _ _ _ _ _ _ he => hs a b c d _ (by rw [he]; rfl))
    fun a b c d u _ he => hs a b c d u (by rw [he]; rfl)]
  rfl

/-- What is read of a string is also read of it with other breaks behind. -/
def Resumes (s : Text) : Prop :=
  ∀ t rest a, readString s = some (a, rest) → Likewise s t →
    ∃ rest', Likewise rest rest' ∧ rest'.length < t.length ∧ readString t = some (a, rest')

/-- A stretch that stands for a character in both texts, in front of what is read in both. -/
theorem Resumes.behind {c : Char} {q s t rest a : Text} (ih : Resumes s)
    (h : behindChar c (readString s) = some (a, rest)) (ht : Likewise s t)
    (hread : readString (q ++ t) = behindChar c (readString t)) :
    ∃ rest', Likewise rest rest' ∧ rest'.length < (q ++ t).length ∧ readString (q ++ t) = some (a, rest') := by
  obtain ⟨⟨v, rest₁⟩, hv, he⟩ := Option.map_eq_some_iff.1 h
  obtain ⟨rfl, rfl⟩ : c :: v = a ∧ rest₁ = rest := by simpa using he
  obtain ⟨rest', hrest, hlen, ht'⟩ := ih t rest₁ v hv ht
  refine ⟨rest', hrest, ?_, ?_⟩
  · rw [List.length_append]
    omega
  · rw [hread, ht']
    rfl

/-- A stretch without breaks that stands for a character, whatever follows it. -/
theorem Resumes.cons {c : Char} {q s : Text} (ih : Resumes s) (hq : Unbroken q)
    (hread : ∀ t, readString (q ++ t) = behindChar c (readString t)) : Resumes (q ++ s) := by
  intro t rest a h ht
  obtain ⟨u, rfl, hu⟩ := ht.append_inv hq
  rw [hread] at h
  exact ih.behind h hu (hread u)

/-- Two code units stand for one character or for two. -/
theorem Resumes.pair {a b c d a' b' c' d' : Char} {s : Text} (ih : Resumes s)
    (ih' : Resumes (unitText a' b' c' d' ++ s)) : Resumes (unitText a b c d ++ (unitText a' b' c' d' ++ s)) := by
  intro t rest v h ht
  obtain ⟨hi, hunit⟩ := exists_unit h
  by_cases hhigh : 0xd800 ≤ hi ∧ hi < 0xdc00
  · obtain ⟨u, rfl, hu⟩ := ht.append_inv (unbroken_unitText hunit)
    rw [readString_pair hunit hhigh] at h
    obtain ⟨lo, hlo, h⟩ := Option.bind_eq_some_iff.1 h
    obtain ⟨x, rfl, hx⟩ := hu.append_inv (unbroken_unitText hlo)
    have hpair := readString_pair hunit hhigh a' b' c' d' x
    rw [hlo, Option.bind_some] at hpair
    by_cases hlow : 0xdc00 ≤ lo ∧ lo < 0xe000
    · rw [if_pos hlow] at h hpair
      rw [← List.append_assoc] at hpair ⊢
      exact ih.behind h hx hpair
    · rw [if_neg hlow] at h hpair
      exact ih'.behind h hu hpair
  · exact ih'.cons (unbroken_unitText hunit) (readString_unit hunit hhigh) t rest v h ht

/-- A code unit with no other behind it has none behind it in the other text: that would be cut off in this. -/
theorem Resumes.single {a b c d : Char} {s : Text} (hs : ∀ a' b' c' d' u, s ≠ unitText a' b' c' d' ++ u)
    (ih : Resumes s) : Resumes (unitText a b c d ++ s) := by
  intro t rest v h ht
  obtain ⟨n, hunit⟩ := exists_unit h
  obtain ⟨u, rfl, hu⟩ := ht.append_inv (unbroken_unitText hunit)
  rw [readString_single hunit hs] at h
  refine ih.behind h hu (readString_single hunit fun a' b' c' d' w hw => ?_)
  have hfront : Likewise (['\\', 'u'] ++ ([a', b', c', d'] ++ w)) s := by
    rw [hw] at hu
    exact hu.symm
  obtain ⟨x, rfl, -⟩ := hfront.append_inv (by decide)
  have hcut : readString (['\\', 'u'] ++ x) = none := readString_cut hs
  rw [hcut] at h
  cases h

theorem ne_break_of_escape? {e c : Char} (h : escape? e = some c) : e ≠ '\n' ∧ e ≠ '\r' := by
  constructor
  · rintro rfl
    cases h
  · rintro rfl
    cases h

theorem unbroken_of_not_control {c : Char} (h : ¬ c.toNat < 0x20) : Unbroken [c] := by
  constructor
  · rw [List.mem_singleton]
    rintro rfl
    exact h (by decide)
  · rw [List.mem_singleton]
    rintro rfl
    exact h (by decide)

theorem rereads_readString : Rereads readString := by
  intro s
  change Resumes s
  induction s using readString.induct with
  | case1 s =>
    intro t rest a h ht
    obtain ⟨u, rfl, hu⟩ := ht.cons_inv (by decide) (by decide)
    rw [readString.eq_1] at h
    obtain ⟨rfl, rfl⟩ : [] = a ∧ s = rest := by simpa using h
    exact ⟨u, hu, by simp, readString.eq_1 u⟩
  | case2 a b c d a' b' c' d' s ih ih' => exact .pair ih ih'
  | case3 a b c d s hs ih => exact .single hs ih
  | case4 e s hpair hsingle ih =>
    cases he : escape? e with
    | none =>
      intro t rest v h
      rw [readString.eq_4 e s hpair hsingle, he] at h
      cases h
    | some c =>
      have hbreak := ne_break_of_escape? he
      have hunbroken : Unbroken ['\\', e] := by simp [Unbroken, hbreak.1.symm, hbreak.2.symm]
      exact ih.cons hunbroken (readString_escape he)
  | case5 c s hquote hpair hsingle hescape hc =>
    intro t rest v h
    rw [readString.eq_5 c s hquote hpair hsingle hescape, if_pos hc] at h
    cases h
  | case6 c s hquote _ _ _ hc ih =>
    obtain ⟨hcontrol, hslash⟩ := not_or.1 hc
    exact ih.cons (unbroken_of_not_control hcontrol) (readString_plain hquote hslash hcontrol)
  | case7 =>
    intro t rest v h
    cases h

/-! ## Numbers and words -/

/-- The same is read, and what is left differs in its breaks. -/
def Alike {α : Type} (p q : α × Text) : Prop := p.1 = q.1 ∧ Likewise p.2 q.2

theorem alike_digits {s t : Text} (h : Likewise s t) : Alike (Json.digits s) (Json.digits t) :=
  ⟨h.takeWhile_eq (by decide) (by decide), h.dropWhile (by decide)⟩

theorem alike_fraction {s t : Text} (h : Likewise s t) : Alike (fraction s) (fraction t) := by
  by_cases hs : s.head? = some '.'
  · obtain ⟨u, rfl⟩ := List.head?_eq_some_iff.1 hs
    obtain ⟨v, rfl, hv⟩ := h.cons_inv (by decide) (by decide)
    obtain ⟨hdigits, hrest⟩ := alike_digits hv
    simp only [fraction]
    cases hu : Json.digits u with
    | mk ds rest =>
      cases hv' : Json.digits v with
      | mk ds' rest' =>
        rw [hu, hv'] at hdigits hrest
        obtain rfl : ds = ds' := hdigits
        cases ds with
        | nil => exact ⟨rfl, h⟩
        | cons d ds => exact ⟨rfl, hrest⟩
  · rw [fraction_of_head hs, fraction_of_head fun ht => hs ((h.head?_eq_iff (by decide) (by decide)).2 ht)]
    exact ⟨rfl, h⟩

/-- The digits of an exponent behind its sign. -/
def exponentDigits (t : Text) : Option (Int × Text) := match Json.digits t with
  | ([], _) => none
  | (ds, rest) => some ((digitsValue ds : Int), rest)

theorem alike_exponentDigits {s t : Text} (h : Likewise s t) :
    Option.Rel Alike (exponentDigits s) (exponentDigits t) := by
  obtain ⟨hdigits, hrest⟩ := alike_digits h
  unfold exponentDigits
  cases hs : Json.digits s with
  | mk ds rest =>
    cases ht : Json.digits t with
    | mk ds' rest' =>
      rw [hs, ht] at hdigits hrest
      obtain rfl : ds = ds' := hdigits
      cases ds with
      | nil => exact .none
      | cons d ds => exact .some ⟨rfl, hrest⟩

theorem exponent?_mark {e : Char} (he : e = 'e' ∨ e = 'E') (t : Text) :
    exponent? (e :: t) =
      if t.head? = some '-' then (exponentDigits t.tail).map fun p => (-p.1, p.2)
      else exponentDigits (if t.head? = some '+' then t.tail else t) := by
  simp only [exponent?, if_pos he]
  split
  · rfl
  · rfl
  · next hminus hplus =>
    have hhead (c : Char) (hc : ∀ u, t = c :: u → False) : t.head? ≠ some c := fun h => by
      obtain ⟨u, hu⟩ := List.head?_eq_some_iff.1 h
      exact hc u hu
    rw [if_neg (hhead '-' hminus), if_neg (hhead '+' hplus)]
    rfl

theorem alike_exponent? {s t : Text} (h : Likewise s t) : Option.Rel Alike (exponent? s) (exponent? t) := by
  by_cases hs : ∃ e, (e = 'e' ∨ e = 'E') ∧ s.head? = some e
  · obtain ⟨e, he, hs⟩ := hs
    obtain ⟨u, rfl⟩ := List.head?_eq_some_iff.1 hs
    obtain ⟨v, rfl, hv⟩ := h.cons_inv (by rcases he with rfl | rfl <;> decide) (by rcases he with rfl | rfl <;> decide)
    have htail {c : Char} (hn : c ≠ '\n') (hr : c ≠ '\r') (hu : u.head? = some c) : Likewise u.tail v.tail := by
      obtain ⟨w, rfl⟩ := List.head?_eq_some_iff.1 hu
      obtain ⟨x, rfl, hx⟩ := hv.cons_inv hn hr
      exact hx
    have hminus := hv.head?_eq_iff (c := '-') (by decide) (by decide)
    have hplus := hv.head?_eq_iff (c := '+') (by decide) (by decide)
    rw [exponent?_mark he, exponent?_mark he]
    by_cases hm : u.head? = some '-'
    · rw [if_pos hm, if_pos (hminus.1 hm)]
      refine rel_map (alike_exponentDigits (htail (by decide) (by decide) hm)) fun p q hpq => ⟨?_, hpq.2⟩
      rw [hpq.1]
    · rw [if_neg hm, if_neg fun hm' => hm (hminus.2 hm')]
      by_cases hp : u.head? = some '+'
      · rw [if_pos hp, if_pos (hplus.1 hp)]
        exact alike_exponentDigits (htail (by decide) (by decide) hp)
      · rw [if_neg hp, if_neg fun hp' => hp (hplus.2 hp')]
        exact alike_exponentDigits hv
  · have hnone {u : Text} (hu : ∀ e, (e = 'e' ∨ e = 'E') → u.head? ≠ some e) : exponent? u = none :=
      exponent?_of_head fun c hc he => hu c (by simpa using he) hc
    rw [hnone fun e he hhead => hs ⟨e, he, hhead⟩, hnone fun e he hhead => hs ⟨e, he, ?_⟩]
    · exact .none
    · exact (h.head?_eq_iff (by rcases he with rfl | rfl <;> decide) (by rcases he with rfl | rfl <;> decide)).2 hhead

theorem alike_readWhole {s t : Text} (h : Likewise s t) : Option.Rel Alike (readWhole s) (readWhole t) := by
  have hdigit {u : Text} (hu : u.head? ≠ some '0') :
      readWhole u = if (Json.digits u).1 = [] then none else some (Json.digits u) := by
    unfold readWhole
    split
    · exact absurd rfl hu
    · cases hd : Json.digits u with
      | mk ds rest => cases ds <;> rfl
  by_cases hs : s.head? = some '0'
  · obtain ⟨u, rfl⟩ := List.head?_eq_some_iff.1 hs
    obtain ⟨v, rfl, hv⟩ := h.cons_inv (by decide) (by decide)
    exact .some ⟨rfl, hv⟩
  · rw [hdigit hs, hdigit fun ht => hs ((h.head?_eq_iff (by decide) (by decide)).2 ht), (alike_digits h).1]
    split
    · exact .none
    · exact .some (alike_digits h)

/-- A number from its whole part and what stands behind that. -/
def afterWhole (neg : Bool) (p : Text × Text) : Json × Text :=
  match exponent? (fraction p.2).2 with
  | some (e, rest) =>
    (.double (.ofDecimal neg (digitsValue (p.1 ++ (fraction p.2).1)) (e - (fraction p.2).1.length)), rest)
  | none =>
    if (fraction p.2).1.isEmpty then
      let n : Int := digitsValue p.1
      (.int (if neg then -n else n), (fraction p.2).2)
    else
      (.double (.ofDecimal neg (digitsValue (p.1 ++ (fraction p.2).1)) (-(fraction p.2).1.length)), (fraction p.2).2)

theorem readUnsigned_eq_map (neg : Bool) (t : Text) : readUnsigned neg t = (readWhole t).map (afterWhole neg) := by
  rfl

theorem alike_afterWhole (neg : Bool) {p q : Text × Text} (h : Alike p q) :
    Alike (afterWhole neg p) (afterWhole neg q) := by
  obtain ⟨hwhole, hrest⟩ := h
  obtain ⟨hfraction, hbehind⟩ := alike_fraction hrest
  have hexponent := alike_exponent? hbehind
  unfold afterWhole
  rw [hwhole, hfraction]
  cases hp : exponent? (fraction p.2).2 with
  | none =>
    rw [hp] at hexponent
    rw [(rel_none_iff hexponent).1 rfl]
    dsimp only
    split
    · exact ⟨rfl, hbehind⟩
    · exact ⟨rfl, hbehind⟩
  | some r =>
    rw [hp] at hexponent
    obtain ⟨r', hr', hvalue, hlast⟩ := rel_some hexponent
    rw [hr']
    dsimp only
    rw [hvalue]
    exact ⟨rfl, hlast⟩

theorem suffix_fraction (t : Text) : (fraction t).2 <:+ t := by
  unfold fraction
  split
  · next u =>
    cases hd : Json.digits u with
    | mk ds rest =>
      have hrest : rest <:+ u := by
        have hdrop : rest = u.dropWhile Char.isDigit := (Prod.mk.inj hd).2.symm
        exact hdrop ▸ List.dropWhile_suffix _
      cases ds with
      | nil => exact List.suffix_refl _
      | cons d ds => exact hrest.trans (List.suffix_cons _ _)
  · exact List.suffix_refl _

theorem suffix_exponentDigits {t : Text} {p : Int × Text} (h : exponentDigits t = some p) : p.2 <:+ t := by
  unfold exponentDigits at h
  cases hd : Json.digits t with
  | mk ds rest =>
    have hdrop : rest = t.dropWhile Char.isDigit := (Prod.mk.inj hd).2.symm
    rw [hd] at h
    cases ds with
    | nil => cases h
    | cons d ds =>
      obtain rfl := Option.some.inj h
      exact hdrop ▸ List.dropWhile_suffix _

theorem suffix_exponent? {t : Text} {p : Int × Text} (h : exponent? t = some p) : p.2 <:+ t := by
  cases t with
  | nil => cases h
  | cons e t =>
    have hbehind : p.2 <:+ t := by
      by_cases he : e = 'e' ∨ e = 'E'
      · rw [exponent?_mark he] at h
        split at h
        · obtain ⟨q, hq, rfl⟩ := Option.map_eq_some_iff.1 h
          exact (suffix_exponentDigits hq).trans (List.tail_suffix t)
        · split at h
          · exact (suffix_exponentDigits h).trans (List.tail_suffix t)
          · exact suffix_exponentDigits h
      · simp only [exponent?, if_neg he] at h
        cases h
    exact hbehind.trans (List.suffix_cons e t)

theorem length_lt_of_readWhole {t : Text} {p : Text × Text} (h : readWhole t = some p) : p.2.length < t.length := by
  unfold readWhole at h
  split at h
  · obtain rfl := Option.some.inj h
    simp
  · cases hd : Json.digits t with
    | mk ds rest =>
      obtain ⟨hfront, hdrop⟩ : t.takeWhile Char.isDigit = ds ∧ t.dropWhile Char.isDigit = rest := Prod.mk.inj hd
      have hlength := congrArg List.length (List.takeWhile_append_dropWhile (p := Char.isDigit) (l := t))
      rw [hd] at h
      cases ds with
      | nil => cases h
      | cons d ds =>
        obtain rfl := Option.some.inj h
        rw [hfront, hdrop] at hlength
        simp at hlength
        simp
        omega

theorem rereads_readUnsigned (neg : Bool) : Rereads (readUnsigned neg) := by
  intro s t rest v h ht
  rw [readUnsigned_eq_map] at h
  obtain ⟨p, hp, he⟩ := Option.map_eq_some_iff.1 h
  have hwhole := alike_readWhole ht
  rw [hp] at hwhole
  obtain ⟨q, hq, hpq⟩ := rel_some hwhole
  obtain ⟨hvalue, hrest⟩ := alike_afterWhole neg hpq
  rw [he] at hvalue hrest
  have hsuffix : (afterWhole neg q).2 <:+ q.2 := by
    unfold afterWhole
    split
    · next e r hr => exact (suffix_exponent? hr).trans (suffix_fraction q.2)
    · split
      · exact suffix_fraction q.2
      · exact suffix_fraction q.2
  refine ⟨(afterWhole neg q).2, hrest, hsuffix.length_le.trans_lt (length_lt_of_readWhole hq), ?_⟩
  rw [readUnsigned_eq_map, hq, Option.map_some]
  exact congrArg some (Prod.ext hvalue.symm rfl)

theorem rereads_word {w s t rest : Text} {v a : Json} (hw : Unbroken w) (hne : w ≠ [])
    (hread : ∀ u, readAtom (w ++ u) = (Text.after? w (w ++ u)).map fun rest => (v, rest))
    (h : ((Text.after? w s).map fun rest => (v, rest)) = some (a, rest)) (ht : Likewise s t) :
    ∃ rest', Likewise rest rest' ∧ rest'.length < t.length ∧ readAtom t = some (a, rest') := by
  obtain ⟨u, hu, he⟩ := Option.map_eq_some_iff.1 h
  obtain ⟨rfl, rfl⟩ : v = a ∧ u = rest := by simpa using he
  rw [Text.eq_append_of_after? hu] at ht
  obtain ⟨rest', rfl, hrest⟩ := ht.append_inv hw
  have hpos : 0 < w.length := List.length_pos_iff.2 hne
  refine ⟨rest', hrest, ?_, readAtom_word hread⟩
  rw [List.length_append]
  omega

theorem rereads_readAtom : Rereads readAtom := by
  intro s t rest v h ht
  unfold readAtom at h
  dsimp only at h
  split at h
  · exact rereads_word (by decide) (by decide) (fun _ => rfl) h ht
  · exact rereads_word (by decide) (by decide) (fun _ => rfl) h ht
  · exact rereads_word (by decide) (by decide) (fun _ => rfl) h ht
  · exact rereads_word (by decide) (by decide) (fun _ => rfl) h ht
  · exact rereads_word (by decide) (by decide) (fun _ => rfl) h ht
  · exact rereads_word (by decide) (by decide) (fun _ => rfl) h ht
  · obtain ⟨u, rfl, hu⟩ := ht.cons_inv (by decide) (by decide)
    obtain ⟨rest', hrest, hlen, hread⟩ := rereads_readUnsigned true _ u rest v h hu
    have hsign := readAtom_sign hread
    exact ⟨rest', hrest, Nat.lt_succ_of_lt hlen, hsign⟩
  · obtain ⟨rest', hrest, hlen, hread⟩ := rereads_readUnsigned false _ t rest v h ht
    have hsign := readAtom_sign hread
    exact ⟨rest', hrest, hlen, hsign⟩

/-! ## Values -/

/-- What is read of a text takes no more fuel than the characters it consists of, of which there is at least one. -/
structure Costs {α : Type} (read : Nat → Reader Char α) (t : Text) (a : α) (rest : Text) : Prop where
  shorter : rest.length < t.length
  enough : ∀ fuel, t.length ≤ fuel + rest.length → read fuel t = some (a, rest)

theorem Costs.of_succ {α : Type} {read : Nat → Reader Char α} {t rest : Text} {a : α} (hlen : rest.length < t.length)
    (h : ∀ fuel, t.length ≤ fuel + 1 + rest.length → read (fuel + 1) t = some (a, rest)) : Costs read t a rest := by
  refine ⟨hlen, fun fuel hfuel => ?_⟩
  obtain ⟨f, rfl⟩ : ∃ f, fuel = f + 1 := ⟨fuel - 1, by omega⟩
  exact h f hfuel

section
variable {b c d e t u x rest k : Text} {v : Json} {vs : List Json} {ms : Members}

theorem costs_atom (hlen : rest.length < t.length) (h : readAtom t = some (v, rest)) : Costs Json.read t v rest :=
  .of_succ hlen fun fuel _ => read_of_readAtom h fuel

theorem costs_string (hlen : rest.length < t.length) (h : readString t = some (k, rest)) :
    Costs Json.read ('"' :: t) (.str k) rest := by
  refine .of_succ (Nat.lt_succ_of_lt hlen) fun fuel _ => ?_
  rw [read.eq_2, h]
  rfl

theorem costs_empty_array (hb : Blank b) : Costs Json.read ('[' :: (b ++ ']' :: rest)) (.arr []) rest := by
  refine .of_succ ?_ fun fuel _ => ?_
  · simp only [List.length_cons, List.length_append]
    omega
  · have hend : dropSpace (b ++ ']' :: rest) = ']' :: rest := dropSpace_blank hb (by simp [isSpace])
    rw [read.eq_3, hend]
    rfl

theorem costs_array (hb : Blank b) (h : Costs readItems t vs rest) :
    Costs Json.read ('[' :: (b ++ t)) (.arr vs) rest := by
  have hlen := h.shorter
  refine .of_succ ?_ fun fuel hfuel => read_items hb (h.enough fuel ?_)
  · simp only [List.length_cons, List.length_append]
    omega
  · simp only [List.length_cons, List.length_append] at hfuel
    omega

theorem costs_item (hv : Costs Json.read t v (b ++ ']' :: rest)) (hb : Blank b) : Costs readItems t [v] rest := by
  have hlen := hv.shorter
  simp only [List.length_append, List.length_cons] at hlen
  refine .of_succ (by omega) fun fuel hfuel => readItems_last (hv.enough fuel ?_) hb
  simp only [List.length_append, List.length_cons]
  omega

theorem costs_items (hv : Costs Json.read t v (b ++ ',' :: (c ++ u))) (hb : Blank b) (hc : Blank c)
    (h : Costs readItems u vs rest) : Costs readItems t (v :: vs) rest := by
  have hlen := hv.shorter
  have hrest := h.shorter
  simp only [List.length_append, List.length_cons] at hlen
  refine .of_succ (by omega) fun fuel hfuel => readItems_cons (hv.enough fuel ?_) hb hc (h.enough fuel ?_)
  · simp only [List.length_append, List.length_cons]
    omega
  · omega

theorem costs_empty_object (hb : Blank b) : Costs Json.read ('\x7b' :: (b ++ '\x7d' :: rest)) (.obj []) rest := by
  refine .of_succ ?_ fun fuel _ => ?_
  · simp only [List.length_cons, List.length_append]
    omega
  · have hend : dropSpace (b ++ '\x7d' :: rest) = '\x7d' :: rest := dropSpace_blank hb (by simp [isSpace])
    rw [read.eq_4, hend]
    rfl

theorem costs_object (hb : Blank b) (h : Costs readMembers t ms rest) :
    Costs Json.read ('\x7b' :: (b ++ t)) (.obj (Keyed.ofList ms)) rest := by
  have hlen := h.shorter
  refine .of_succ ?_ fun fuel hfuel => read_members hb (h.enough fuel ?_)
  · simp only [List.length_cons, List.length_append]
    omega
  · simp only [List.length_cons, List.length_append] at hfuel
    omega

theorem costs_member (hlen : (b ++ ':' :: (c ++ t)).length < x.length) (hk : readString x = some (k, b ++ ':' :: (c ++ t)))
    (hb : Blank b) (hc : Blank c) (hv : Costs Json.read t v (d ++ '\x7d' :: rest)) (hd : Blank d) :
    Costs readMembers ('"' :: x) [(k, v)] rest := by
  have hvalue := hv.shorter
  simp only [List.length_append, List.length_cons] at hlen hvalue
  refine .of_succ ?_ fun fuel hfuel => readMembers_last hk hb hc (hv.enough fuel ?_) hd
  · simp only [List.length_cons]
    omega
  · simp only [List.length_append, List.length_cons] at hfuel ⊢
    omega

theorem costs_members (hlen : (b ++ ':' :: (c ++ t)).length < x.length) (hk : readString x = some (k, b ++ ':' :: (c ++ t)))
    (hb : Blank b) (hc : Blank c) (hv : Costs Json.read t v (d ++ ',' :: (e ++ u))) (hd : Blank d) (he : Blank e)
    (h : Costs readMembers u ms rest) : Costs readMembers ('"' :: x) ((k, v) :: ms) rest := by
  have hvalue := hv.shorter
  have hrest := h.shorter
  simp only [List.length_append, List.length_cons] at hlen hvalue
  refine .of_succ ?_ fun fuel hfuel =>
    readMembers_cons hk hb hc (hv.enough fuel ?_) hd he (h.enough fuel ?_)
  · simp only [List.length_cons]
    omega
  · simp only [List.length_append, List.length_cons] at hfuel ⊢
    omega
  · simp only [List.length_cons] at hfuel
    omega

end

/-- The blanks in front of a text. -/
theorem exists_space (t : Text) : ∃ b, Blank b ∧ t = b ++ dropSpace t :=
  ⟨t.takeWhile isSpace, fun _ hc => List.mem_takeWhile_imp hc, List.takeWhile_append_dropWhile.symm⟩

/-- What stands behind the blanks is the same character in both texts. -/
theorem exists_space_of_likewise {s t u : Text} {c : Char} (h : Likewise s t) (hs : dropSpace s = c :: u) :
    ∃ b v, Blank b ∧ t = b ++ c :: v ∧ Likewise u v := by
  have hdrop : Likewise (dropSpace s) (dropSpace t) := h.dropWhile (by decide)
  have hc : isSpace c = false := by
    have hhead := List.head?_dropWhile_not isSpace s
    have hfront : (s.dropWhile isSpace).head? = some c := by
      rw [show s.dropWhile isSpace = c :: u from hs]
      rfl
    rw [hfront] at hhead
    simpa using hhead
  rw [hs] at hdrop
  obtain ⟨v, hv, huv⟩ := hdrop.cons_inv (by rintro rfl; cases hc) (by rintro rfl; cases hc)
  obtain ⟨b, hb, ht⟩ := exists_space t
  exact ⟨b, v, hb, by rw [← hv]; exact ht, huv⟩

/-- What is read of a text is read of every text with other breaks, with no more fuel than that has characters. -/
def ReadsAgain {α : Type} (read : Nat → Reader Char α) (s : Text) (a : α) (rest : Text) : Prop :=
  ∀ t, Likewise s t → ∃ rest', Likewise rest rest' ∧ Costs read t a rest'

section
variable {s t u r w q rest k : Text} {v : Json}

/-- What is read behind blanks is read behind the blanks of the other text. -/
theorem ReadsAgain.behind_blanks {α : Type} {read : Nat → Reader Char α} {a : α} (h : ReadsAgain read (dropSpace s) a rest)
    (ht : Likewise s t) :
    ∃ b u rest', Blank b ∧ t = b ++ u ∧ Likewise rest rest' ∧ Costs read u a rest' := by
  obtain ⟨b, hb, hspace⟩ := exists_space t
  obtain ⟨rest', hrest, hcosts⟩ := h (dropSpace t) (ht.dropWhile (by decide))
  exact ⟨b, dropSpace t, rest', hb, hspace, hrest, hcosts⟩

/-- The name of a member with its value, in a text with other breaks. -/
theorem exists_member (hk : readString u = some (k, r)) (hcolon : dropSpace r = ':' :: w)
    (hv : ReadsAgain Json.read (dropSpace w) v q) (ht : Likewise ('"' :: u) t) :
    ∃ x b c y q', t = '"' :: x ∧ Blank b ∧ Blank c ∧ (b ++ ':' :: (c ++ y)).length < x.length ∧
      readString x = some (k, b ++ ':' :: (c ++ y)) ∧ Likewise q q' ∧ Costs Json.read y v q' := by
  obtain ⟨x, rfl, hx⟩ := ht.cons_inv (by decide) (by decide)
  obtain ⟨r', hr, hlen, hname⟩ := rereads_readString u x r k hk hx
  obtain ⟨b, z, hb, rfl, hz⟩ := exists_space_of_likewise hr hcolon
  obtain ⟨c, y, q', hc, rfl, hq, hcosts⟩ := hv.behind_blanks hz
  exact ⟨x, b, c, y, q', rfl, hb, hc, hlen, hname, hq, hcosts⟩

/-- Every step of the reader is taken in the other text as well. -/
theorem steps_reread : Steps (ReadsAgain Json.read) (ReadsAgain readItems) (ReadsAgain readMembers) where
  atom hatom t ht := by
    obtain ⟨rest', hrest, hlen, hread⟩ := rereads_readAtom _ t _ _ hatom ht
    exact ⟨rest', hrest, costs_atom hlen hread⟩
  string hstring t ht := by
    obtain ⟨x, rfl, hx⟩ := ht.cons_inv (by decide) (by decide)
    obtain ⟨rest', hrest, hlen, hread⟩ := rereads_readString _ x _ _ hstring hx
    exact ⟨rest', hrest, costs_string hlen hread⟩
  noItems hclose t ht := by
    obtain ⟨x, rfl, hx⟩ := ht.cons_inv (by decide) (by decide)
    obtain ⟨b, rest', hb, rfl, hrest⟩ := exists_space_of_likewise hx hclose
    exact ⟨rest', hrest, costs_empty_array hb⟩
  items hitems t ht := by
    obtain ⟨x, rfl, hx⟩ := ht.cons_inv (by decide) (by decide)
    obtain ⟨b, y, rest', hb, rfl, hrest, hcosts⟩ := hitems.behind_blanks hx
    exact ⟨rest', hrest, costs_array hb hcosts⟩
  noMembers hclose t ht := by
    obtain ⟨x, rfl, hx⟩ := ht.cons_inv (by decide) (by decide)
    obtain ⟨b, rest', hb, rfl, hrest⟩ := exists_space_of_likewise hx hclose
    exact ⟨rest', hrest, costs_empty_object hb⟩
  members hmembers t ht := by
    obtain ⟨x, rfl, hx⟩ := ht.cons_inv (by decide) (by decide)
    obtain ⟨b, y, rest', hb, rfl, hrest, hcosts⟩ := hmembers.behind_blanks hx
    exact ⟨rest', hrest, costs_object hb hcosts⟩
  lastItem hv hclose t ht := by
    obtain ⟨r', hr, hcosts⟩ := hv t ht
    obtain ⟨b, rest', hb, rfl, hrest⟩ := exists_space_of_likewise hr hclose
    exact ⟨rest', hrest, costs_item hcosts hb⟩
  nextItem hv hcomma hmore t ht := by
    obtain ⟨r', hr, hcosts⟩ := hv t ht
    obtain ⟨b, x, hb, rfl, hx⟩ := exists_space_of_likewise hr hcomma
    obtain ⟨c, y, rest', hc, rfl, hrest, hitems⟩ := hmore.behind_blanks hx
    exact ⟨rest', hrest, costs_items hcosts hb hc hitems⟩
  lastMember hk hcolon hv hclose t ht := by
    obtain ⟨x, b, c, y, q', rfl, hb, hc, hlen, hname, hq, hcosts⟩ := exists_member hk hcolon hv ht
    obtain ⟨d, rest', hd, rfl, hrest⟩ := exists_space_of_likewise hq hclose
    exact ⟨rest', hrest, costs_member hlen hname hb hc hcosts hd⟩
  nextMember hk hcolon hv hcomma hmore t ht := by
    obtain ⟨x, b, c, y, q', rfl, hb, hc, hlen, hname, hq, hcosts⟩ := exists_member hk hcolon hv ht
    obtain ⟨d, z, hd, rfl, hz⟩ := exists_space_of_likewise hq hcomma
    obtain ⟨e, u, rest', he, rfl, hrest, hmembers⟩ := hmore.behind_blanks hz
    exact ⟨rest', hrest, costs_members hlen hname hb hc hcosts hd he hmembers⟩

end

/-- Only blanks are like blanks. -/
theorem dropSpace_eq_nil_of_likewise {s t : Text} (h : Likewise s t) (hs : dropSpace s = []) : dropSpace t = [] := by
  have hdrop : Likewise (dropSpace s) (dropSpace t) := h.dropWhile (by decide)
  rw [hs] at hdrop
  rcases hdrop.cases_head with ⟨-, hnil⟩ | ⟨c, s', -, -, -, hcons, -⟩ | ⟨c, -, s', -, -, -, hcons, -⟩
  · exact hnil
  · cases hcons
  · cases hcons

theorem parse?_of_likewise {s t : Text} {v : Json} (h : Likewise s t) (hs : parse? s = some v) :
    parse? t = some v := by
  obtain ⟨rest, hread, hend⟩ := read_of_parse? hs
  obtain ⟨rest', hrest, hcosts⟩ := (steps_reread.holds _).value hread (dropSpace t) (h.dropWhile (by decide))
  have hlen : (dropSpace t).length ≤ t.length := (List.dropWhile_suffix _).length_le
  rw [parse?, hcosts.enough (t.length + 1) (by omega)]
  simp [dropSpace_eq_nil_of_likewise hrest hend]

/-- Texts that differ in their breaks hold the same value. -/
theorem parse?_of_breaks {s t : Text} (h : Breaks s t) : parse? s = parse? t := by
  cases hs : parse? s with
  | some v => exact (parse?_of_likewise (.inl h) hs).symm
  | none =>
    cases ht : parse? t with
    | none => rfl
    | some v =>
      rw [parse?_of_likewise (.inr h) ht] at hs
      cases hs

end DocPages.Json
