import DocPages.Api.Payload
import DocPages.Proofs.Json.Equality
import DocPages.Proofs.Json.Reading

/-!
# Where payloads end

The count of braces knows nothing of JSON but strings, and the reader of JSON knows nothing of depth. They
agree because all that the reader takes for a value leaves the count where it was: outside strings, at the
same depth, and never at depth zero in between. What it takes is legal besides: no slash stands outside its
strings and no control character in them.
-/

namespace DocPages.Api

open Json

/-- What follows a string without control characters, for a scan that is in it. -/
def afterString? (q : Quoting) : Text → Option Text
  | [] => none
  | c :: t =>
    if c.toNat < 0x20 then none
    else if q.next c = .outside then some t
    else afterString? (q.next c) t

/-- A scan that enters `p` in state `q` leaves it in state `q'`, at the depth at which it came. -/
def Passes (q : Quoting) (p : Text) (q' : Quoting) : Prop :=
  ∀ (depth : Int) (t : Text), 0 < depth →
    splitClosing q depth (p ++ t) =
      (splitClosing q' depth t).map fun (before, rest) => (p ++ before, rest)

theorem Passes.nil (q : Quoting) : Passes q [] q := by
  intro depth t hd
  simp

theorem Passes.append {q q' q'' : Quoting} {p p' : Text} (h : Passes q p q') (h' : Passes q' p' q'') :
    Passes q (p ++ p') q'' := by
  intro depth t hd
  rw [List.append_assoc, h depth (p' ++ t) hd, h' depth t hd, Option.map_map]
  congr 1
  funext x
  simp

/-- A character that is no brace outside strings leaves the depth as it is. -/
theorem Passes.cons {q q' : Quoting} {c : Char} {p : Text}
    (hc : q = .outside → c ≠ '\x7b' ∧ c ≠ '\x7d') (h : Passes (q.next c) p q') :
    Passes q (c :: p) q' := by
  intro depth t hd
  have hstop : ¬ (q = .outside ∧ c = '\x7d' ∧ depth = 1) := fun ⟨hq, hb, _⟩ => (hc hq).2 hb
  have hdepth : depthAfter q depth c = depth := by
    unfold depthAfter
    split
    · rename_i hq
      rw [if_neg (hc hq).1, if_neg (hc hq).2]
    · rfl
  rw [List.cons_append, splitClosing, if_neg hstop, hdepth, h depth t hd, Option.map_map]
  rfl

/-- Braces around what is passed are passed as well, since the depth between them is greater. -/
theorem Passes.braces {p : Text} (h : Passes .outside p .outside) :
    Passes .outside ('\x7b' :: (p ++ ['\x7d'])) .outside := by
  intro depth t hd
  have hne : depth + 1 ≠ 1 := by omega
  have hclose : splitClosing .outside (depth + 1) ('\x7d' :: t) =
      (splitClosing .outside depth t).map fun (before, rest) => ('\x7d' :: before, rest) := by
    have hdepth : depthAfter .outside (depth + 1) '\x7d' = depth := by simp [depthAfter]
    rw [splitClosing, if_neg (by simp [hne]), hdepth]
    rfl
  have hopen : depthAfter .outside depth '\x7b' = depth + 1 := by simp [depthAfter]
  have hp := h (depth + 1) ('\x7d' :: t) (by omega)
  rw [hclose, Option.map_map] at hp
  rw [List.cons_append, splitClosing, if_neg (by simp), hopen, List.append_assoc,
    show Quoting.next .outside '\x7b' = .outside from rfl, List.singleton_append, hp, Option.map_map]
  congr 1
  funext x
  simp

/-- The brace behind what is passed closes the one in front of it. -/
theorem splitClosing_of_passes {p : Text} (h : Passes .outside p .outside) (rest : Text) :
    splitClosing .outside 1 (p ++ '\x7d' :: rest) = some (p, rest) := by
  rw [h 1 ('\x7d' :: rest) (by omega)]
  simp [splitClosing]

theorem eq_of_splitClosing {q : Quoting} {depth : Int} {t before rest : Text}
    (h : splitClosing q depth t = some (before, rest)) : t = before ++ '\x7d' :: rest := by
  induction t generalizing q depth before with
  | nil => cases h
  | cons c t ih =>
    rw [splitClosing] at h
    split at h
    · rename_i hc
      obtain ⟨rfl, rfl⟩ := Prod.mk.inj (Option.some.inj h)
      rw [hc.2.1]
      rfl
    · obtain ⟨⟨y, r⟩, hy, he⟩ := Option.map_eq_some_iff.1 h
      obtain ⟨rfl, rfl⟩ := Prod.mk.inj he
      rw [ih hy]
      rfl

/-- The scan from an opening brace, in terms of what follows the brace. -/
theorem closingBrace?_eq {t s : Text} {start : Nat} (h : t.drop start = '\x7b' :: s) :
    closingBrace? t start = (splitClosing .outside 1 s).map fun p => start + 1 + p.1.length := by
  have hopen : depthAfter .outside 0 '\x7b' = 1 := by simp [depthAfter]
  have hnext : Quoting.next .outside '\x7b' = .outside := rfl
  rw [closingBrace?, h, splitClosing, if_neg (by simp), hopen, hnext, Option.map_map]
  congr 1
  funext p
  simp
  omega

theorem closingBrace?_of_passes {p : Text} (h : Passes .outside p .outside) (rest : Text) :
    closingBrace? ('\x7b' :: (p ++ '\x7d' :: rest)) 0 = some (p.length + 1) := by
  rw [closingBrace?_eq (List.drop_zero ..), splitClosing_of_passes h]
  simp
  omega

/-- A character that may stand where a scan of a value is. -/
def Quoting.Allows (q : Quoting) (c : Char) : Prop := if q = .outside then c ≠ '/' else 0x20 ≤ c.toNat

instance (q : Quoting) (c : Char) : Decidable (q.Allows c) :=
  inferInstanceAs (Decidable (if q = .outside then c ≠ '/' else 0x20 ≤ c.toNat))

/-- A scan that enters `p` in state `q` meets allowed characters only and leaves it in state `q'`. -/
inductive Legal : Quoting → Text → Quoting → Prop where
  | nil (q : Quoting) : Legal q [] q
  | cons {q q' : Quoting} {c : Char} {p : Text} (hc : q.Allows c) (hp : Legal (q.next c) p q') :
      Legal q (c :: p) q'

theorem Legal.append {q q' q'' : Quoting} {p p' : Text} (h : Legal q p q') (h' : Legal q' p' q'') :
    Legal q (p ++ p') q'' := by
  induction h with
  | nil => exact h'
  | cons hc _ ih => exact .cons hc (ih h')

/-- Behind any beginning of the text, what comes next is allowed. -/
theorem Legal.behind {q q' : Quoting} {a b : Text} (h : Legal q (a ++ b) q') :
    Legal (a.foldl Quoting.next q) b q' := by
  induction a generalizing q with
  | nil => exact h
  | cons c a ih =>
    cases h with
    | cons _ hp => exact ih hp

theorem allows_outside {c : Char} (h : c ≠ '/') : Quoting.Allows .outside c := by
  simpa [Quoting.Allows] using h

/-! ## Strings -/

theorem passes_of_afterString? {q : Quoting} (hq : q ≠ .outside) {t rest : Text}
    (h : afterString? q t = some rest) : ∃ p, t = p ++ rest ∧ Passes q p .outside ∧ Legal q p .outside := by
  induction t generalizing q with
  | nil => simp [afterString?] at h
  | cons c t ih =>
    rw [afterString?] at h
    split at h
    · cases h
    · rename_i hctrl
      have hallows : q.Allows c := by
        rw [Quoting.Allows, if_neg hq]
        omega
      split at h
      · rename_i hc
        obtain rfl := Option.some.inj h
        refine ⟨[c], rfl, .cons (fun h => absurd h hq) ?_, .cons hallows ?_⟩
        · rw [hc]
          exact .nil .outside
        · rw [hc]
          exact .nil .outside
      · rename_i hc
        obtain ⟨p, rfl, hp, hlegal⟩ := ih hc h
        exact ⟨c :: p, rfl, .cons (fun h => absurd h hq) hp, .cons hallows hlegal⟩

/-- Where a string ends does not depend on what follows it. -/
theorem afterString?_append {q : Quoting} {t rest : Text} (h : afterString? q t = some rest)
    (more : Text) : afterString? q (t ++ more) = some (rest ++ more) := by
  induction t generalizing q with
  | nil => simp [afterString?] at h
  | cons c t ih =>
    rw [afterString?] at h
    rw [List.cons_append, afterString?]
    split at h
    · cases h
    · rename_i hctrl
      rw [if_neg hctrl]
      split at h
      · rename_i hc
        rw [if_pos hc, Option.some.inj h]
      · rename_i hc
        rw [if_neg hc]
        exact ih h

theorem next_hexValue? {c : Char} {n : Nat} (h : hexValue? c = some n) :
    Quoting.next .inside c = .inside := by
  have hquote : hexValue? '"' = none := by decide
  have hback : hexValue? '\\' = none := by decide
  have hq : c ≠ '"' := by
    rintro rfl
    simp [hquote] at h
  have hb : c ≠ '\\' := by
    rintro rfl
    simp [hback] at h
  simp [Quoting.next]

theorem not_control_of_hexValue? {c : Char} {n : Nat} (h : hexValue? c = some n) : ¬ c.toNat < 0x20 := by
  have hge {d : Char} (hd : 0x20 ≤ d.toNat) (hle : d ≤ c) : ¬ c.toNat < 0x20 :=
    Nat.not_lt.2 (Nat.le_trans hd hle)
  unfold hexValue? at h
  split at h
  · rename_i hc
    exact hge (by decide) hc.1
  · split at h
    · rename_i hc
      exact hge (by decide) hc.1
    · split at h
      · rename_i hc
        exact hge (by decide) hc.1
      · cases h

theorem not_control_of_escape? {e c : Char} (h : escape? e = some c) : ¬ e.toNat < 0x20 := by
  unfold escape? at h
  split at h
  all_goals first | decide | cases h

/-- The four digits of an escape stay inside the string. -/
theorem afterString?_unit {a b c d : Char} {n : Nat} (h : unit? a b c d = some n) (t : Text) :
    afterString? .inside ('\\' :: 'u' :: a :: b :: c :: d :: t) = afterString? .inside t := by
  simp only [unit?, Option.bind_eq_bind, Option.bind_eq_some_iff] at h
  obtain ⟨_, ha, _, hb, _, hc, _, hd, -⟩ := h
  have hesc : Quoting.next .inside '\\' = .escaped := rfl
  have hu : Quoting.next .escaped 'u' = .inside := rfl
  simp [afterString?, hesc, hu, next_hexValue? ha, next_hexValue? hb, next_hexValue? hc, next_hexValue? hd,
    not_control_of_hexValue? ha, not_control_of_hexValue? hb, not_control_of_hexValue? hc,
    not_control_of_hexValue? hd]

/-- What follows a string is not touched by the characters put in front of its value. -/
theorem rest_of_bind {x : Option (Text × Text)} {c : Char} {s rest : Text}
    (h : (x.bind fun y => pure (c :: y.1, y.2)) = some (s, rest)) : ∃ u, x = some (u, rest) := by
  obtain ⟨⟨u, r⟩, rfl, he⟩ := Option.bind_eq_some_iff.1 h
  obtain ⟨-, rfl⟩ := Prod.mk.inj (Option.some.inj he)
  exact ⟨u, rfl⟩

/-- The reader of strings and the scan agree on where a string ends. -/
theorem afterString?_of_readString {t s rest : Text} (h : readString t = some (s, rest)) :
    afterString? .inside t = some rest := by
  fun_induction readString t generalizing s rest with
  | case1 t =>
    obtain ⟨-, rfl⟩ := Prod.mk.inj (Option.some.inj h)
    rfl
  | case2 a b c d a' b' c' d' t ih2 ih1 =>
    simp only [Option.bind_eq_bind, Option.bind_eq_some_iff] at h
    obtain ⟨hi, hhi, h⟩ := h
    rw [afterString?_unit hhi]
    split at h
    · obtain ⟨lo, hlo, h⟩ := Option.bind_eq_some_iff.1 h
      split at h
      · obtain ⟨u, hu⟩ := rest_of_bind h
        rw [afterString?_unit hlo]
        exact ih2 hu
      · obtain ⟨u, hu⟩ := rest_of_bind h
        exact ih1 hu
    · rw [Option.bind_some, if_neg (by omega)] at h
      obtain ⟨u, hu⟩ := rest_of_bind h
      exact ih1 hu
  | case3 a b c d t _ ih =>
    simp only [Option.bind_eq_bind, Option.bind_eq_some_iff] at h
    obtain ⟨hi, hhi, h⟩ := h
    obtain ⟨u, hu⟩ := rest_of_bind (Option.bind_eq_some_iff.2 h)
    rw [afterString?_unit hhi]
    exact ih hu
  | case4 e t _ _ ih =>
    simp only [Option.bind_eq_bind, Option.bind_eq_some_iff] at h
    obtain ⟨_, hchar, ⟨u, r⟩, hr, he⟩ := h
    obtain ⟨-, rfl⟩ := Prod.mk.inj (Option.some.inj he)
    have hesc : Quoting.next .inside '\\' = .escaped := rfl
    have hnext : Quoting.next .escaped e = .inside := by simp [Quoting.next]
    simp [afterString?, hesc, hnext, not_control_of_escape? hchar, ih hr]
  | case5 => simp at h
  | case6 c t hq _ _ _ hc ih =>
    obtain ⟨⟨u, r⟩, hr, he⟩ := Option.map_eq_some_iff.1 h
    obtain ⟨-, rfl⟩ := Prod.mk.inj he
    have hb : c ≠ '\\' := fun hb => hc (.inr hb)
    have hctrl : ¬ c.toNat < 0x20 := fun hlt => hc (.inl hlt)
    have hnext : Quoting.next .inside c = .inside := by simp [Quoting.next]
    rw [afterString?, if_neg hctrl, hnext, if_neg (by decide), ih hr]
  | case7 => simp at h

/-! ## Values -/

/-- What has been read of `t` down to `rest` is passed by a scan outside strings, and it is legal. -/
def Crosses (t rest : Text) : Prop :=
  ∃ p, t = p ++ rest ∧ Passes .outside p .outside ∧ Legal .outside p .outside

theorem Crosses.refl (t : Text) : Crosses t t := ⟨[], rfl, .nil .outside, .nil .outside⟩

theorem Crosses.trans {t u rest : Text} (h : Crosses t u) (h' : Crosses u rest) : Crosses t rest := by
  obtain ⟨p, rfl, hp, hlegal⟩ := h
  obtain ⟨p', rfl, hp', hlegal'⟩ := h'
  exact ⟨p ++ p', by simp, hp.append hp', hlegal.append hlegal'⟩

/-- A character that neither opens a string nor is a brace or a slash. -/
def isPlain (c : Char) : Bool := c != '"' && c != '\x7b' && c != '\x7d' && c != '/'

theorem Crosses.cons {c : Char} {t rest : Text} (hc : isPlain c = true) (h : Crosses t rest) :
    Crosses (c :: t) rest := by
  obtain ⟨p, rfl, hp, hlegal⟩ := h
  simp only [isPlain, Bool.and_eq_true, bne_iff_ne] at hc
  obtain ⟨⟨⟨hquote, hopen⟩, hclose⟩, hslash⟩ := hc
  have hnext : Quoting.next .outside c = .outside := by simp [Quoting.next]
  refine ⟨c :: p, rfl, .cons (fun _ => ⟨hopen, hclose⟩) ?_, .cons (allows_outside hslash) ?_⟩
  · rw [hnext]
    exact hp
  · rw [hnext]
    exact hlegal

theorem Crosses.append {p t : Text} (hp : ∀ c ∈ p, isPlain c = true) : Crosses (p ++ t) t := by
  induction p with
  | nil => exact .refl t
  | cons c p ih =>
    have hc := hp c List.mem_cons_self
    exact .cons hc (ih fun d hd => hp d (List.mem_cons_of_mem c hd))

/-- Skipping characters of a kind to which no quote, brace or slash belongs. -/
theorem crosses_dropWhile {f : Char → Bool} (hq : f '"' = false) (ho : f '\x7b' = false)
    (hc : f '\x7d' = false) (hs : f '/' = false) (t : Text) : Crosses t (t.dropWhile f) := by
  have hplain : ∀ c ∈ t.takeWhile f, isPlain c = true := by
    intro c hmem
    have hf : f c = true := List.all_eq_true.1 List.all_takeWhile c hmem
    have h₁ : c ≠ '"' := by rintro rfl; simp [hq] at hf
    have h₂ : c ≠ '\x7b' := by rintro rfl; simp [ho] at hf
    have h₃ : c ≠ '\x7d' := by rintro rfl; simp [hc] at hf
    have h₄ : c ≠ '/' := by rintro rfl; simp [hs] at hf
    simp [isPlain, h₁, h₂, h₃, h₄]
  have h : Crosses (t.takeWhile f ++ t.dropWhile f) (t.dropWhile f) := .append hplain
  rwa [List.takeWhile_append_dropWhile] at h

theorem crosses_dropSpace (t : Text) : Crosses t (dropSpace t) :=
  crosses_dropWhile (by decide) (by decide) (by decide) (by decide) t

theorem crosses_digits (t : Text) : Crosses t (digits t).2 :=
  crosses_dropWhile (by decide) (by decide) (by decide) (by decide) t

theorem crosses_fraction (t : Text) : Crosses t (fraction t).2 := by
  unfold fraction
  split
  · rename_i t
    have ht := crosses_digits t
    split
    · exact .refl _
    · rename_i ds rest _ hd
      rw [hd] at ht
      exact .cons (by decide) ht
  · exact .refl _

/-- The digits of an exponent. -/
theorem crosses_exponentDigits {t rest : Text} {n : Int}
    (h : (match digits t with
      | ([], _) => none
      | (ds, rest) => some ((digitsValue ds : Int), rest)) = some (n, rest)) : Crosses t rest := by
  have ht := crosses_digits t
  split at h
  · simp at h
  · rename_i ds r _ hd
    obtain ⟨-, rfl⟩ := Prod.mk.inj (Option.some.inj h)
    rwa [hd] at ht

theorem crosses_exponent? {t rest : Text} {n : Int} (h : exponent? t = some (n, rest)) :
    Crosses t rest := by
  unfold exponent? at h
  split at h
  · rename_i e t
    split at h
    · rename_i he
      have hplain : isPlain e = true := by rcases he with rfl | rfl <;> decide
      refine .cons hplain ?_
      dsimp only at h
      split at h
      · obtain ⟨⟨m, r⟩, hm, hr⟩ := Option.map_eq_some_iff.1 h
        obtain ⟨-, rfl⟩ := Prod.mk.inj hr
        exact .cons (by decide) (crosses_exponentDigits hm)
      · exact .cons (by decide) (crosses_exponentDigits h)
      · exact crosses_exponentDigits h
    · simp at h
  · simp at h

theorem crosses_readUnsigned {neg : Bool} {t rest : Text} {v : Json}
    (h : readUnsigned neg t = some (v, rest)) : Crosses t rest := by
  unfold readUnsigned at h
  obtain ⟨⟨ds, r⟩, hwhole, he⟩ := Option.map_eq_some_iff.1 h
  have hds : Crosses t r := by
    split at hwhole
    · obtain ⟨-, rfl⟩ := Prod.mk.inj (Option.some.inj hwhole)
      exact .cons (by decide) (.refl _)
    · have ht := crosses_digits t
      split at hwhole
      · simp at hwhole
      · rename_i hd
        obtain ⟨-, rfl⟩ := Prod.mk.inj (Option.some.inj hwhole)
        rwa [hd] at ht
  have hfs : Crosses t (fraction r).2 := hds.trans (crosses_fraction r)
  dsimp only at he
  split at he
  · rename_i hx
    obtain ⟨-, rfl⟩ := Prod.mk.inj he
    exact hfs.trans (crosses_exponent? hx)
  · split at he
    all_goals
      obtain ⟨-, rfl⟩ := Prod.mk.inj he
      exact hfs

theorem crosses_word {w t rest : Text} {v j : Json} (hw : w.all isPlain = true)
    (h : ((Text.after? w t).map fun rest => (j, rest)) = some (v, rest)) : Crosses t rest := by
  obtain ⟨r, hr, he⟩ := Option.map_eq_some_iff.1 h
  obtain ⟨-, rfl⟩ := Prod.mk.inj he
  rw [Text.eq_append_of_after? hr]
  exact .append (List.all_eq_true.1 hw)

theorem crosses_readAtom {t rest : Text} {v : Json} (h : readAtom t = some (v, rest)) :
    Crosses t rest := by
  unfold readAtom at h
  dsimp only at h
  split at h
  · exact crosses_word (by decide) h
  · exact crosses_word (by decide) h
  · exact crosses_word (by decide) h
  · exact crosses_word (by decide) h
  · exact crosses_word (by decide) h
  · exact crosses_word (by decide) h
  · exact .cons (by decide) (crosses_readUnsigned h)
  · exact crosses_readUnsigned h

theorem crosses_string {t s rest : Text} (h : readString t = some (s, rest)) :
    Crosses ('"' :: t) rest := by
  obtain ⟨p, rfl, hp, hlegal⟩ := passes_of_afterString? (by decide) (afterString?_of_readString h)
  exact ⟨'"' :: p, rfl, .cons (fun _ => by decide) hp, .cons (allows_outside (by decide)) hlegal⟩

theorem Crosses.braces {t rest : Text} (h : Crosses t ('\x7d' :: rest)) :
    Crosses ('\x7b' :: t) rest := by
  obtain ⟨p, rfl, hp, hlegal⟩ := h
  have hend : Legal .outside ['\x7d'] .outside := .cons (allows_outside (by decide)) (.nil .outside)
  exact ⟨'\x7b' :: (p ++ ['\x7d']), by simp, hp.braces,
    .cons (allows_outside (by decide)) (hlegal.append hend)⟩

theorem crosses_blanks {t rest : Text} (h : dropSpace t = rest) : Crosses t rest :=
  h ▸ crosses_dropSpace t

/-- Blanks and a plain character behind them. -/
theorem crosses_token {c : Char} {t rest : Text} (hc : isPlain c = true) (h : dropSpace t = c :: rest) :
    Crosses t rest :=
  (crosses_blanks h).trans (.cons hc (.refl rest))

/-- A name, the colon behind it and a value. -/
theorem crosses_member {t k r w q : Text} (hk : readString t = some (k, r)) (hcolon : dropSpace r = ':' :: w)
    (hv : Crosses (dropSpace w) q) : Crosses ('"' :: t) q :=
  (crosses_string hk).trans ((crosses_token (by decide) hcolon).trans ((crosses_dropSpace w).trans hv))

/-- All that the reader takes is crossed; of members, what stands in front of the brace that closes them. -/
theorem steps_cross : Steps (fun t _ rest => Crosses t rest) (fun t _ rest => Crosses t rest)
    fun t _ rest => Crosses t ('\x7d' :: rest) where
  atom hatom := crosses_readAtom hatom
  string hstring := crosses_string hstring
  noItems hclose := .cons (by decide) (crosses_token (by decide) hclose)
  items hitems := .cons (by decide) ((crosses_dropSpace _).trans hitems)
  noMembers hclose := (crosses_blanks hclose).braces
  members hmembers := ((crosses_dropSpace _).trans hmembers).braces
  lastItem hv hclose := hv.trans (crosses_token (by decide) hclose)
  nextItem hv hcomma hmore :=
    hv.trans ((crosses_token (by decide) hcomma).trans ((crosses_dropSpace _).trans hmore))
  lastMember hk hcolon hv hclose := (crosses_member hk hcolon hv).trans (crosses_blanks hclose)
  nextMember hk hcolon hv hcomma hmore :=
    (crosses_member hk hcolon hv).trans
      ((crosses_token (by decide) hcomma).trans ((crosses_dropSpace _).trans hmore))

/-- What stands between the braces of an object is crossed. -/
theorem crosses_object {fuel : Nat} {t rest : Text} {v : Json}
    (h : Json.read (fuel + 1) ('\x7b' :: t) = some (v, rest)) : Crosses t ('\x7d' :: rest) := by
  rcases read_object h with ⟨hclose, -⟩ | ⟨ms, hms, -⟩
  · exact crosses_blanks hclose
  · exact (crosses_dropSpace t).trans ((steps_cross.holds fuel).members hms)

/-! ## Whole payloads -/

/-- A text that holds a value is passed as a whole. -/
theorem crosses_of_parse? {j : Text} {v : Json} (h : parse? j = some v) : Crosses j [] := by
  obtain ⟨r, hr, hend⟩ := read_of_parse? h
  have hj : Crosses j (dropSpace r) :=
    (crosses_dropSpace j).trans (((steps_cross.holds _).value hr).trans (crosses_dropSpace r))
  exact hend ▸ hj

theorem passes_of_parse? {j : Text} {v : Json} (h : parse? j = some v) :
    Passes .outside j .outside := by
  obtain ⟨p, rfl, hp, -⟩ := crosses_of_parse? h
  simpa using hp

theorem legal_of_parse? {j : Text} {v : Json} (h : parse? j = some v) : Legal .outside j .outside := by
  obtain ⟨p, rfl, -, hlegal⟩ := crosses_of_parse? h
  simpa using hlegal

/-- Behind a text of blanks comes what follows it; otherwise the blanks end in the text. -/
theorem dropSpace_append (t u : Text) :
    dropSpace (t ++ u) = if dropSpace t = [] then dropSpace u else dropSpace t ++ u := by
  unfold dropSpace
  rw [List.dropWhile_append]
  by_cases h : t.dropWhile isSpace = []
  · rw [if_pos h, h]
    rfl
  · rw [if_neg h, if_neg (mt List.isEmpty_iff.1 h)]

section
variable {q : Text} {v : Json} (h : parse? ('\x7b' :: (q ++ ['\x7d'])) = some v)
include h

/-- An object that ends with a brace has been read to its very end. -/
theorem read_of_parse?_object :
    ∃ fuel, Json.read (fuel + 1) ('\x7b' :: (q ++ ['\x7d'])) = some (v, []) := by
  obtain ⟨r, hr, hend⟩ := read_of_parse? h
  refine ⟨('\x7b' :: (q ++ ['\x7d'])).length, ?_⟩
  rcases List.eq_nil_or_concat r with rfl | ⟨r', c, rfl⟩
  · exact hr
  · obtain ⟨p, hp, -⟩ := crosses_object hr
    have hlast := congrArg List.getLast? hp
    have hc : c = '\x7d' := by simpa [List.getLast?_cons, eq_comm] using hlast
    rw [List.concat_eq_append, dropSpace_append, hc] at hend
    split at hend
    · cases hend
    · simp at hend

theorem passes_of_parse?_object : Passes .outside q .outside := by
  obtain ⟨fuel, hr⟩ := read_of_parse?_object h
  obtain ⟨p, hp, hpass, -⟩ := crosses_object hr
  obtain rfl : q = p := List.append_cancel_right hp
  exact hpass

/-- The members of an object without its braces are no value: a name would have to end the text. -/
theorem parse?_members_eq_none : parse? q = none := by
  cases hq : parse? q with
  | none => rfl
  | some x =>
    obtain ⟨y, hy, hend⟩ := read_of_parse? hq
    obtain ⟨fuel, hr⟩ := read_of_parse?_object h
    have hsplit := dropSpace_append q ['\x7d']
    by_cases hnil : dropSpace q = []
    · rw [hnil] at hy
      cases hy
    · rw [if_neg hnil] at hsplit
      rcases read_object hr with ⟨hempty, -⟩ | ⟨ms, hms, -⟩
      · rw [hsplit] at hempty
        exact absurd (List.append_cancel_right (hempty.trans (List.nil_append _).symm)) hnil
      · cases fuel with
        | zero => cases hms
        | succ fuel =>
          obtain ⟨u, k, r, w, v, r', hu, hk, hw, -⟩ := readMembers_succ hms
          rw [hsplit] at hu
          cases hdq : dropSpace q with
          | nil => exact absurd hdq hnil
          | cons c u' =>
            rw [hdq] at hu hy
            obtain ⟨rfl, rfl⟩ := List.cons.inj hu
            obtain ⟨⟨s, y'⟩, hs, he⟩ := Option.map_eq_some_iff.1 hy
            obtain ⟨-, rfl⟩ := Prod.mk.inj he
            have hafter := afterString?_append (afterString?_of_readString hs) ['\x7d']
            have hk := afterString?_of_readString hk
            obtain rfl : y' ++ ['\x7d'] = r := Option.some.inj (hafter.symm.trans hk)
            rw [dropSpace_append, if_pos hend, show dropSpace ['\x7d'] = ['\x7d'] from rfl] at hw
            simp at hw

end

/-- A value is delimited and read exactly, whatever follows: between the braces of an attribute as it
stands, and an object also without braces of its own, which are then those of the attribute. -/
theorem payload_delimited (j r : Text) (v : Json) (h : parse? j = some v) :
    closingBrace? ('\x7b' :: (j ++ '\x7d' :: r)) 0 = some (j.length + 1) ∧ payload? j = some v ∧
      ∀ q, j = '\x7b' :: (q ++ ['\x7d']) →
        closingBrace? (j ++ r) 0 = some (j.length - 1) ∧ payload? q = some v := by
  refine ⟨closingBrace?_of_passes (passes_of_parse? h) r, by simp [payload?, h], ?_⟩
  rintro q rfl
  constructor
  · have hq := closingBrace?_of_passes (passes_of_parse?_object h) r
    simpa using hq
  · simp [payload?, parse?_members_eq_none h, h]

/-- An object with braces and an escaped quote in its strings, in front of further braces. -/
theorem payload_delimited_braces :
    let q : Text := "\"a\\\"\x7d\": [\"\x7b\", \x7b\x7d], \"b\": 1"
    let v : Json := .obj [("a\"\x7d".toList, .arr [.str ['\x7b'], .obj []]), (['b'], .int 1)]
    payload? q = some v ∧ payload? ('\x7b' :: (q ++ ['\x7d'])) = some v ∧
      closingBrace? ('\x7b' :: (q ++ ['\x7d']) ++ " />\x7d".toList) 0 = some (q.length + 1) := by
  have hv : parse? ('\x7b' :: ("\"a\\\"\x7d\": [\"\x7b\", \x7b\x7d], \"b\": 1".toList ++ ['\x7d'])) =
      some (.obj [("a\"\x7d".toList, .arr [.str ['\x7b'], .obj []]), (['b'], .int 1)]) := by decide +kernel
  have h := payload_delimited _ " />\x7d".toList _ hv
  have hq := h.2.2 _ rfl
  exact ⟨hq.2, h.2.1, hq.1⟩

end DocPages.Api
