import DocPages.Heading
import DocPages.Proofs.Text.Lines
import DocPages.Proofs.Text.Takes
import DocPages.Proofs.Text.Trim

/-!
# Slugs

Everything about slugs follows from their runs of letters and digits. A text has the runs of its parts when it is cut at
a character that belongs to no run, and what is joined from runs has these runs again. So a slug is its own slug, and
the slug of two texts with a space between them is joined from the slugs of both. Replacing what stands between runs by
hyphens and taking off those at both ends comes to the same.
-/

namespace DocPages

/-- A run is not empty and holds letters and digits only. -/
def IsRun (r : Text) : Prop := r ≠ [] ∧ ∀ c ∈ r, isSlugChar c = true

/-- The runs of letters and digits in a text. -/
def runs (t : Text) : List Text := splitFilled (fun c => !isSlugChar c) t

/-- The text is empty, or what stands between its hyphens are runs of the letters a to z and the digits. -/
def IsSlug (t : Text) : Prop :=
  t = [] ∨ ∀ r ∈ Text.splitAt '-' t, r ≠ [] ∧ ∀ c ∈ r, ('a' ≤ c ∧ c ≤ 'z') ∨ ('0' ≤ c ∧ c ≤ '9')

theorem slug_eq_join_runs (t : Text) : slug t = Text.join "-" (runs (Text.lower t)) := rfl

section
variable {s t r : Text} {rs : List Text} {c : Char}

/-! ## Runs -/

theorem isSlugChar_iff : isSlugChar c = true ↔ ('a' ≤ c ∧ c ≤ 'z') ∨ ('0' ≤ c ∧ c ≤ '9') := by
  have hdigit : c.isDigit = true ↔ '0' ≤ c ∧ c ≤ '9' := by
    rw [Char.isDigit, Bool.and_eq_true, decide_eq_true_eq, decide_eq_true_eq]
    rfl
  rw [isSlugChar, Bool.or_eq_true, hdigit, isPlainLetter, Bool.and_eq_true, decide_eq_true_eq, decide_eq_true_eq]

theorem isSlug_iff : IsSlug t ↔ t = [] ∨ ∀ r ∈ Text.splitAt '-' t, IsRun r := by
  simp only [IsSlug, IsRun, isSlugChar_iff]

theorem isRun_of_mem_runs (h : r ∈ runs t) : IsRun r := by
  obtain ⟨hne, hall⟩ := of_mem_splitFilled h
  exact ⟨hne, fun c hc => by simpa using hall c hc⟩

theorem IsRun.hyphen_notMem (h : IsRun r) : '-' ∉ r := fun hc => absurd (h.2 '-' hc) (by decide)

/-- Runs end at each character that is no letter and no digit. -/
theorem runs_append (hc : isSlugChar c = false) (s t : Text) : runs (s ++ c :: t) = runs s ++ runs t :=
  splitFilled_append (p := fun c => !isSlugChar c) (by simp [hc]) s t

theorem runs_front (hs : ∀ c ∈ s, isSlugChar c = false) (t : Text) : runs (s ++ t) = runs t :=
  splitFilled_front (fun c hc => by simp [hs c hc]) t

theorem runs_of_isRun (h : IsRun r) : runs r = [r] := splitFilled_of_none h.1 fun c hc => by simp [h.2 c hc]

/-- What has been joined from runs has these runs. -/
theorem runs_join (h : ∀ r ∈ rs, IsRun r) : runs (Text.join "-" rs) = rs := by
  induction rs with
  | nil => rfl
  | cons r rs ih =>
    obtain ⟨hr, hrs⟩ := List.forall_mem_cons.1 h
    cases rs with
    | nil => exact runs_of_isRun hr
    | cons r' rs =>
      calc runs (Text.join "-" (r :: r' :: rs))
        _ = runs (r ++ '-' :: Text.join "-" (r' :: rs)) := by
            rw [Text.join_cons_cons]
            rfl
        _ = runs r ++ runs (Text.join "-" (r' :: rs)) := runs_append (by decide) r _
        _ = r :: r' :: rs := by
            rw [runs_of_isRun hr, ih hrs]
            rfl

/-! ## Slugs of slugs -/

theorem isSlug_join (h : ∀ r ∈ rs, IsRun r) : IsSlug (Text.join "-" rs) := by
  rw [isSlug_iff]
  cases rs with
  | nil => exact .inl rfl
  | cons r rs =>
    right
    have hsplit : Text.splitAt '-' (Text.join "-" (r :: rs)) = r :: rs :=
      Text.splitAt_join (by simp) fun r hr => (h r hr).hyphen_notMem
    rwa [hsplit]

theorem isSlug_slug (t : Text) : IsSlug (slug t) := isSlug_join fun _ h => isRun_of_mem_runs h

theorem toNat_of_isSlugChar (h : isSlugChar c = true) :
    (97 ≤ c.toNat ∧ c.toNat ≤ 122) ∨ (48 ≤ c.toNat ∧ c.toNat ≤ 57) := by
  rcases Bool.or_eq_true_iff.1 h with hc | hc
  · exact .inl (toNat_of_isPlainLetter hc)
  · exact .inr (by simpa [Char.isDigit, UInt32.le_iff_toNat_le] using hc)

/-- What a slug is made of is in lower case. -/
theorem lowerChar_eq_self (h : isSlugChar c = true ∨ c = '-') : Text.lowerChar c = [c] := by
  have hrange : c.toNat < 0x80 ∧ (c.toNat < 65 ∨ 90 < c.toNat) := by
    rcases h with h | rfl
    · have hc := toNat_of_isSlugChar h
      omega
    · decide
  have hcapital : ¬ (c.val ≥ 'A'.val ∧ c.val ≤ 'Z'.val) := by
    rintro ⟨hl, hu⟩
    have hl : 65 ≤ c.toNat := UInt32.le_iff_toNat_le.1 hl
    have hu : c.toNat ≤ 90 := UInt32.le_iff_toNat_le.1 hu
    omega
  have hsame : c.toLower = c := dif_neg hcapital
  rw [Text.lowerChar, if_pos hrange.1, hsame]

theorem lower_eq_self (h : IsSlug t) : Text.lower t = t := by
  have hmem : ∀ c ∈ t, isSlugChar c = true ∨ c = '-' := by
    intro c hc
    rcases isSlug_iff.1 h with rfl | hruns
    · cases hc
    · by_cases hhyphen : c = '-'
      · exact .inr hhyphen
      · have hplain : ∀ d ∈ [c], (d == '-') = false := by simpa using hhyphen
        obtain ⟨r, hr, hin⟩ := exists_piece_of_infix hplain ((List.singleton_infix_iff c t).2 hc)
        exact .inl ((hruns r hr).2 c ((List.singleton_infix_iff c r).1 hin))
  rw [Text.lower, List.flatMap_congr fun c hc => lowerChar_eq_self (hmem c hc), List.flatMap_singleton']

/-- Slugs are the texts that are their own slugs. -/
theorem slug_eq_self_iff : slug t = t ↔ IsSlug t := by
  refine ⟨fun h => h ▸ isSlug_slug t, fun h => ?_⟩
  rcases isSlug_iff.1 h with rfl | hruns
  · rfl
  · have hjoin : Text.join "-" (Text.splitAt '-' t) = t := Text.join_splitAt '-' t
    rw [slug_eq_join_runs, lower_eq_self h]
    nth_rewrite 1 [← hjoin]
    rw [runs_join hruns, hjoin]

/-! ## Slugs of texts side by side -/

theorem Text.lower_append (s t : Text) : Text.lower (s ++ t) = Text.lower s ++ Text.lower t := List.flatMap_append

/-- A space between two texts keeps their runs apart. -/
theorem slug_append_space (s t : Text) :
    slug (s ++ " " ++ t) = Text.join "-" ([slug s, slug t].filter (!·.isEmpty)) := by
  have hlower : Text.lower (s ++ " " ++ t) = Text.lower s ++ ' ' :: Text.lower t := by
    rw [Text.lower_append, Text.lower_append, List.append_assoc]
    rfl
  rw [slug_eq_join_runs, hlower, runs_append (by decide)]
  exact Text.join_append_parts "-" (fun _ h => (isRun_of_mem_runs h).1) fun _ h => (isRun_of_mem_runs h).1

/-- A slug is empty or made of runs of letters and digits with single hyphens between them, it is its own slug, and the
slug of two texts with a space between them is what there is of their slugs with a hyphen between. -/
theorem slug_normal_form :
    (∀ t, IsSlug (slug t)) ∧ (∀ t, slug (slug t) = slug t) ∧
      ∀ s t, slug (s ++ " " ++ t) = Text.join "-" ([slug s, slug t].filter (!·.isEmpty)) :=
  ⟨isSlug_slug, fun t => slug_eq_self_iff.2 (isSlug_slug t), slug_append_space⟩

-- The capital I with a dot and the sign for kelvins have letters of the alphabet in lower case.
example : slug " Straße: \u0130 & \u212a -- 2!" = "stra-e-i-k-2" := by decide

/-! ## Slugs by replacement -/

/-- A stretch of characters that belong to no run. -/
def gap? : Reader Char Unit := fun t =>
  if t.takeWhile (!isSlugChar ·) = [] then none else some ((), t.dropWhile (!isSlugChar ·))

/-- The text with every such stretch as one hyphen. -/
def hyphenate (t : Text) : Text := Text.mapFound gap? (fun _ => "-") t

theorem gap?_eq_none_iff : gap? t = none ↔ ∀ c ∈ t.head?, isSlugChar c = true := by
  cases t with
  | nil => simp [gap?]
  | cons c t => by_cases hc : isSlugChar c = true <;> simp [gap?, hc]

/-- A stretch between runs goes up to the next run. -/
theorem exists_of_gap?_eq_some {a : Unit} (h : gap? t = some (a, s)) :
    ∃ between, between ≠ [] ∧ (∀ c ∈ between, isSlugChar c = false) ∧ t = between ++ s ∧ gap? s = none := by
  unfold gap? at h
  split at h
  · cases h
  · next hne =>
    obtain ⟨-, rfl⟩ := Prod.mk.inj (Option.some.inj h)
    refine ⟨t.takeWhile (!isSlugChar ·), hne, fun c hc => ?_, List.takeWhile_append_dropWhile.symm,
      gap?_eq_none_iff.2 fun c hc => ?_⟩
    · simpa using List.mem_takeWhile_imp hc
    · simpa using Text.not_of_mem_head?_trimStart hc

theorem takes_gap : Takes gap? := fun _ _ _ h => by
  obtain ⟨between, hne, -, ht, -⟩ := exists_of_gap?_eq_some h
  exact ⟨between, hne, ht⟩

/-- Where a run begins or has begun with `r`, the hyphens stand between the runs, up to one at the end. -/
theorem exists_hyphenate_eq_join (t : Text) : ∀ r, (∀ c ∈ r, isSlugChar c = true) → r ≠ [] ∨ gap? t = none →
    ∃ back, (∀ c ∈ back, c = '-') ∧ r ++ hyphenate t = Text.join "-" (runs (r ++ t)) ++ back := by
  induction t using takes_gap.induction with
  | nil =>
    intro r hr _
    refine ⟨[], by simp, ?_⟩
    by_cases hne : r = []
    · subst hne
      rfl
    · rw [List.append_nil r, runs_of_isRun ⟨hne, hr⟩]
      rfl
  | kept c t hnone ih =>
    -- The character joins the run that has begun.
    intro r hr _
    have hc : isSlugChar c = true := gap?_eq_none_iff.1 hnone c rfl
    obtain ⟨back, hback, heq⟩ := ih (r ++ [c]) (List.forall_mem_append.2 ⟨hr, by simpa using hc⟩) (.inl (by simp))
    refine ⟨back, hback, ?_⟩
    rw [hyphenate, Text.mapFound_kept hnone, ← hyphenate]
    simpa using heq
  | found s t a hs hfound ih =>
    intro r hr hor
    obtain ⟨between, -, hother, heq, hnone⟩ := exists_of_gap?_eq_some hfound
    obtain rfl := List.append_cancel_right heq
    obtain ⟨d, s, rfl⟩ := List.exists_cons_of_ne_nil hs
    obtain ⟨hd, hother⟩ := List.forall_mem_cons.1 hother
    obtain ⟨back, hback, hrest⟩ := ih [] (by simp) (.inr hnone)
    have hr : IsRun r := ⟨hor.resolve_right (by rw [hfound]; simp), hr⟩
    have hruns : runs (r ++ (d :: s ++ t)) = r :: runs t := by
      rw [List.cons_append, runs_append hd, runs_of_isRun hr, runs_front hother]
      rfl
    have hhyphen : hyphenate (d :: s ++ t) = "-" ++ (Text.join "-" (runs t) ++ back) := by
      rw [hyphenate, Text.mapFound_front (by simp) hfound, ← hyphenate]
      exact congrArg ("-".toList ++ ·) hrest
    rw [hruns, hhyphen]
    cases runs t with
    | nil => exact ⟨"-" ++ back, by simpa using hback, rfl⟩
    | cons r' rs => exact ⟨back, hback, by rw [Text.join_cons_cons]; simp only [List.append_assoc]⟩

/-- What has been joined from runs begins and ends with a run. -/
theorem trim_join (h : ∀ r ∈ rs, IsRun r) : Text.trim (· == '-') (Text.join "-" rs) = Text.join "-" rs := by
  have hplain {r : Text} (hr : IsRun r) {c : Char} (hc : c ∈ r) : (c == '-') = false :=
    beq_false_of_ne fun heq => hr.hyphen_notMem (heq ▸ hc)
  refine Text.trim_eq_self (fun c hc => ?_) fun c hc => ?_
  · cases rs with
    | nil => cases hc
    | cons r rs =>
      have hr := h r List.mem_cons_self
      obtain ⟨back, hback⟩ : ∃ back, Text.join "-" (r :: rs) = r ++ back := by
        cases rs with
        | nil => exact ⟨[], (List.append_nil r).symm⟩
        | cons r' rs => exact ⟨_, Text.join_cons_cons "-" r r' rs⟩
      rw [hback, List.head?_append_of_ne_nil _ hr.1] at hc
      exact hplain hr (List.mem_of_mem_head? hc)
  · rcases List.eq_nil_or_concat rs with rfl | ⟨rs, r, rfl⟩
    · cases hc
    · have hr := h r (by simp)
      obtain ⟨front, hfront⟩ : ∃ front, Text.join "-" (rs ++ [r]) = front ++ r := by
        by_cases hne : rs = []
        · subst hne
          exact ⟨[], rfl⟩
        · exact ⟨Text.join "-" rs ++ "-", by rw [Text.join_concat "-" hne, List.append_assoc]⟩
      rw [List.concat_eq_append, hfront, List.getLast?_append_of_ne_nil _ hr.1] at hc
      exact hplain hr (List.mem_of_mem_getLast? hc)

/-- The hyphens at both ends are those in front of the first run and behind the last. -/
theorem trim_hyphenate (t : Text) : Text.trim (· == '-') (hyphenate t) = Text.join "-" (runs t) := by
  have haround {t : Text} (hnone : gap? t = none) (front : Text) (hfront : ∀ c ∈ front, c = '-') :
      Text.trim (· == '-') (front ++ hyphenate t) = Text.join "-" (runs t) := by
    obtain ⟨back, hback, heq⟩ := exists_hyphenate_eq_join t [] (by simp) (.inr hnone)
    rw [List.nil_append, List.nil_append] at heq
    rw [heq]
    exact Text.trim_around (by simpa using hfront) (by simpa using hback) (trim_join fun _ h => isRun_of_mem_runs h)
  cases hgap : gap? t with
  | none => exact haround hgap [] (by simp)
  | some p =>
    obtain ⟨between, hne, hother, rfl, hnone⟩ := exists_of_gap?_eq_some (a := p.1) (s := p.2) hgap
    rw [hyphenate, Text.mapFound_front hne hgap, ← hyphenate, runs_front hother]
    exact haround hnone "-" (by decide)

/-- Lower case in which a capital sigma has a form of its own at the end of a word, where `final` tells by what stands
in front of it and behind it whether it is there. -/
def lowerInContext (final : Text → Text → Bool) (front : Text) : Text → Text
  | [] => []
  | c :: t => (if c = 'Σ' ∧ final front t then ['ς'] else Text.lowerChar c) ++ lowerInContext final (front ++ [c]) t

/-- Neither form of a sigma belongs to a run. -/
theorem runs_append_lowerInContext (final : Text → Text → Bool) (t : Text) :
    ∀ s front, runs (s ++ lowerInContext final front t) = runs (s ++ Text.lower t) := by
  induction t with
  | nil => exact fun _ _ => rfl
  | cons c t ih =>
    intro s front
    have hlower : Text.lower (c :: t) = Text.lowerChar c ++ Text.lower t := rfl
    rw [lowerInContext, hlower]
    split
    · next hsigma =>
      have hforms : Text.lowerChar 'Σ' = ['σ'] := by decide
      rw [hsigma.1, hforms, List.singleton_append, List.singleton_append, runs_append (by decide),
        runs_append (by decide)]
      exact congrArg (runs s ++ ·) (ih [] _)
    · rw [← List.append_assoc, ← List.append_assoc]
      exact ih _ _

/-- A slug is the text in lower case with every stretch of other characters than letters and digits as one hyphen, without
the hyphens at both ends. The form that a sigma takes makes no difference. -/
theorem slug_eq_trim_hyphenate (final : Text → Text → Bool) (t : Text) :
    slug t = Text.trim (· == '-') (hyphenate (lowerInContext final [] t)) := by
  rw [trim_hyphenate, slug_eq_join_runs]
  exact congrArg (Text.join "-") (runs_append_lowerInContext final t [] []).symm

end

end DocPages
