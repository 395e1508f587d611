import DocPages.Proofs.Page.Lossless
import DocPages.Proofs.Text.Lines

/-!
# Code and lines that are dropped

Code is put on the shelf with all the tokens between its fences, and behind its title nothing but the rest of a line is
given up, where no token begins a line. The lines that say that a section is empty hold none, nor do the blanks around a
region.
-/

namespace DocPages

open DocPages.Shelf (token place)

/-! ## Texts behind line breaks -/

section
variable {f : Bool} {n : Nat} {s t u : Text} {ls : List Text}

/-- On a single line a token stands in front. -/
theorem Lined.isPrefix (h : Lined f n s) (hs : '\n' ∉ s) : token n <+: s := by
  obtain ⟨a, b, rfl, ha⟩ := h
  rcases List.eq_nil_or_concat a with rfl | ⟨a, c, rfl⟩
  · exact List.prefix_append _ _
  · obtain rfl : c = '\n' := by simpa [freshBehind] using ha
    exact absurd (by simp) hs

theorem Lined.cons_break : Lined f n ('\n' :: s) ↔ Lined true n s := by
  refine ⟨fun h => h.cons_inv.resolve_left fun hfront => ?_, fun h => .cons (h.mono fun _ => rfl)⟩
  obtain ⟨b, hb⟩ := hfront.2
  cases hb

theorem Lined.onLines_iff : Lined f n (Text.onLines ls) ↔ ∃ line ∈ ls, Lined true n line := by
  induction ls generalizing f with
  | nil =>
    simp only [List.not_mem_nil, false_and, exists_false, iff_false]
    exact fun h => Shelf.token_ne_nil n (List.infix_nil.1 h.isInfix)
  | cons line ls ih =>
    rw [Text.onLines_cons, Lined.cons_break, List.exists_mem_cons_iff]
    constructor
    · intro h
      refine (h.cut (.inr ?_)).imp_right ih.1
      cases ls <;> simp [Text.onLines]
    · rintro (h | h)
      · exact h.append_left _
      · exact .append_right (ih.2 h)

theorem Lined.join_iff : Lined true n (Text.join "\n" ls) ↔ ∃ line ∈ ls, Lined true n line := by
  cases ls with
  | nil => exact @Lined.onLines_iff true n []
  | cons line ls => rw [Text.join_cons, ← Lined.cons_break (f := true), ← Text.onLines_cons, Lined.onLines_iff]

theorem Lex.step_break {σ ρ : Lex} (h : σ.step '\n' = some ρ) (hρ : ρ.tag = none) : σ = ρ := by
  obtain ⟨z, tag⟩ := σ
  have hblank : isBlank '\n' = true := by decide
  cases tag with
  | none => simpa [step, hblank] using h
  | some x =>
    obtain rfl : (⟨z, some (x ++ ['\n'])⟩ : Lex) = ρ := by simpa [step] using h
    cases hρ

theorem Tidy.cons_break : Tidy ('\n' :: s) ↔ Tidy s := by
  have hbreak : Free "\n" := by decide
  exact exists_congr fun z => by rw [← hbreak.run_append s]; rfl

theorem Tidy.join_iff : Tidy (Text.join "\n" ls) ↔ Tidy (Text.onLines ls) := by
  cases ls with
  | nil => exact Iff.rfl
  | cons line ls => rw [Text.join_cons, Text.onLines_cons, Tidy.cons_break]

theorem Whole.cons_break (h : Whole u t) : Whole ('\n' :: u) t := by
  intro σ τ hτ hrun
  obtain ⟨ρ, hstep, hrest⟩ := Lex.run_cons_eq_some.1 hrun
  obtain ⟨rfl, ht⟩ := h ρ τ hτ hrest
  exact ⟨Lex.step_break hstep rfl, ht⟩

/-- A text that begins with what no tag may hold, and in which no tag begins. -/
theorem whole_of_part {part : Text} (hpart : part ∈ tagParts) (hu : '<' ∉ part ++ u) (t : Text) : Whole (part ++ u) t := by
  intro σ τ hτ hrun
  have hstart : σ = .start := Lex.eq_start_of_part hpart (by simpa using hrun) hτ
  subst hstart
  exact ⟨rfl, by rwa [(show Free (part ++ u) from Lex.run_plain hu).run_append] at hrun⟩

end

/-! ## Code -/

namespace Code

open Html

variable {n : Nat} {ls block rest : List Text}

theorem Titled.holds_title {b : Titled} (h : token n <:+: b.title) : b.html.Holds (token n) :=
  .div _ (.left (.div _ (.left (.element _ _ (.text h)) _)) _)

theorem Titled.holds_code {b : Titled} (h : token n <:+: b.code) : b.html.Holds (token n) :=
  .div _ (.right _ (.element _ _ (.element _ _ (.text h))))

/-- Three characters of a fence. -/
theorem fence_mem_tagParts {c : Char} (hc : c = '\x60' ∨ c = '~') : List.replicate 3 c ∈ tagParts := by
  rcases hc with rfl | rfl <;> decide

/-- A block begins and ends with a fence, so it begins and ends outside of tags. -/
theorem whole_block (h : fenced? ls = some (block, rest)) (t : Text) : Whole (Text.join "\n" block) t := by
  obtain ⟨c, line, more, hc, rfl, inside, hinside, rfl⟩ := fenced?_eq_some h
  obtain ⟨k, hk, hkn, hat, -⟩ := closeLongest?_eq_some hinside
  obtain ⟨body, last, -, ⟨blanks, hblanks, rfl⟩, rfl, -⟩ := closeAt?_eq_some hat
  have hfence := fence_mem_tagParts hc
  have hlt : '<' ∉ List.replicate k c ++ blanks := by
    simp only [List.mem_append, not_or]
    refine ⟨fun hmem => ?_, fun hmem => absurd (hblanks _ hmem) (by decide)⟩
    rcases hc with rfl | rfl <;> exact absurd (List.eq_of_mem_replicate hmem) (by decide)
  have hsplit : List.replicate k c = List.replicate 3 c ++ List.replicate (k - 3) c := by
    rw [← List.replicate_add]
    congr 1
    omega
  obtain ⟨info, hline⟩ : List.replicate 3 c <+: c :: line := replicate_prefix_iff.2 (hk.trans hkn)
  intro σ τ hτ hrun
  rw [Text.join_cons, Text.onLines_append] at hrun
  -- The opening fence, up to the end of the last line but one.
  have hstart : σ = .start := Lex.eq_start_of_part hfence (by rw [← hline] at hrun; simpa using hrun) hτ
  subst hstart
  have hclosing : Text.onLines [List.replicate k c ++ blanks] = '\n' :: (List.replicate 3 c ++
      (List.replicate (k - 3) c ++ blanks)) := by
    rw [Text.onLines_cons, ← List.append_assoc (List.replicate 3 c), ← hsplit]
    simp [Text.onLines]
  rw [hclosing, ← List.append_assoc (c :: line), List.append_assoc] at hrun
  obtain ⟨ρ, -, hend⟩ := Lex.run_append_eq_some.1 hrun
  rw [hsplit, List.append_assoc] at hlt
  exact ⟨rfl, ((whole_of_part hfence hlt t).cons_break ρ τ hτ hend).2⟩

end Code

namespace Keeps

/-- Fenced blocks are shelved with the tokens on their lines. -/
theorem replaceLines (ls : List Text) :
    Keeps (fun n => ∃ line ∈ ls, Lined true n line) (fun ms n => ∃ line ∈ ms, Lined true n line)
      (fun ms => Replaces (Text.onLines ls) (Text.onLines ms))
      (Code.replaceLines (fun block => Work.shelve (echo block)) ls) := by
  induction ls using Code.takes_fenced.induction with
  | nil => exact pure (fun _ => id) (.refl _)
  | kept line ls hr ih =>
    rw [Code.replaceLines_kept hr]
    refine ((ih.frame fun n => Lined true n line).mono (fun n hn => ?_) (fun _ _ _ => id) fun _ => id).bind fun ms hms =>
      pure (fun n hn => ?_) ?_
    · exact ((List.exists_mem_cons_iff ..).1 hn).symm
    · exact (List.exists_mem_cons_iff ..).2 hn.symm
    · exact .behind (.behind hms line) ['\n']
  | found block ls b hne hr ih =>
    obtain ⟨-, hb⟩ := Code.eq_append_of_fenced? hr
    obtain rfl : block = b := List.append_cancel_right hb
    rw [Code.replaceLines_front hne hr]
    have hblock : Keeps (fun n => ∃ line ∈ block, Lined true n line) (fun x n => Lined false n x)
        (fun x => ∃ n, x = place n)
        (Work.shelve (echo (Text.join "\n" block))) :=
      shelve fun n hn => (Lined.join_iff.2 hn).isInfix.trans ⟨"[[md:", "]]", rfl⟩
    have hshelve := hblock.frame fun n => ∃ line ∈ ls, Lined true n line
    refine (hshelve.mono (fun n hn => by simpa only [List.mem_append, or_and_right, exists_or] using hn)
      (fun _ _ _ => id) fun _ => id).bind fun x hx => ?_
    refine ((ih.frame fun n => Lined true n x).mono (fun n hn => ?_) (fun _ _ _ => id) fun _ => id).bind fun ms hms =>
      pure (fun n hn => (List.exists_mem_cons_iff ..).2 hn.symm) ?_
    · exact hn.symm.imp_right fun hn => hn.mono fun _ => rfl
    · obtain ⟨m, rfl⟩ := hx
      obtain ⟨line, block, rfl⟩ := List.exists_cons_of_ne_nil hne
      rw [Text.onLines_append, Text.onLines_cons, ← Text.join_cons line block]
      exact .behind ((Code.whole_block hr _).replaces (free_place m) hms) ['\n']

theorem replaceFenced (t : Text) :
    Keeps (fun n => Lined true n t) (fun x n => Lined true n x) (fun x => Tidy t → Tidy x)
      (Code.replaceFenced (fun block => Work.shelve (echo block)) t) := by
  rw [Code.replaceFenced_eq]
  obtain ⟨ls, hls, ht⟩ : ∃ ls, Text.lines t = ls ∧ t = Text.join "\n" ls := ⟨_, rfl, (Text.join_splitAt '\n' t).symm⟩
  rw [hls, ht]
  exact ((replaceLines ls).mono (fun n => Lined.join_iff.1) (fun _ _ _ => id) fun _ => id).bind fun ms hms =>
    pure (fun n => Lined.join_iff.2) fun htidy => Tidy.join_iff.2 (hms.tidy (Tidy.join_iff.1 htidy))

end Keeps

/-! ## Blanks around a region -/

section
variable {f : Bool} {n : Nat} {t : Text}

theorem Lined.trim {p : Char → Bool} (hp : ∀ c, p c = true → c.isAlphanum = false) (h : Lined f n t) :
    Lined true n (Text.trim p t) := by
  obtain ⟨a, b, ha, hb, ht⟩ := Text.exists_trim p t
  have hfree {s : Text} (hs : ∀ c ∈ s, p c = true) : ¬ token n <:+: s :=
    not_token_of_notMem fun hmem => absurd (hp _ (hs _ hmem)) (by decide)
  rw [ht] at h
  have hback := h.behind (.inl fun c hc => hp c (ha c (List.mem_of_mem_getLast? hc))) (hfree ha)
  exact (hback.before (.inr fun c hc => hp c (hb c (List.mem_of_mem_head? hc))) (hfree hb)).mono fun _ => rfl

theorem Lined.strip (h : Lined f n t) : Lined true n (Text.strip t) := h.trim fun _ => isAlphanum_of_isBlank

theorem Tidy.strip (h : Tidy t) : Tidy (Text.strip t) := by
  obtain ⟨a, b, ha, hb, ht⟩ := Text.exists_trim isBlank t
  have hgt : '>' ∉ b := fun hmem => absurd (hb _ hmem) (by decide)
  obtain ⟨z, hz⟩ := h
  rw [ht] at hz
  obtain ⟨ρ, hfront, hrest⟩ := Lex.run_append_eq_some.1 hz
  obtain rfl := Option.some.inj ((Lex.run_blanks ha).symm.trans hfront)
  obtain ⟨⟨y, tag⟩, hbody, hback⟩ := Lex.run_append_eq_some.1 hrest
  cases tag with
  | none => exact ⟨y, hbody⟩
  | some x =>
    obtain ⟨-, hopen⟩ := Lex.run_inside hback rfl hgt
    cases hopen

end

/-! ## Code with a title -/

/-- What a block of code with a title is made of: tokens on its lines stand in its title or in its code. -/
theorem Code.lined_titled {u t : Text} {b : Titled} (hr : titled? (u ++ t) = some (b, t)) :
    Shut u ∧ (∃ v, u = backticks ++ (v ++ backticks)) ∧
      ∀ f n, Lined f n u → token n <:+: b.title ∨ token n <:+: b.code := by
  obtain ⟨indent, more, raw, hlanguage, hindent, hmore, hcode, htext⟩ := titled?_eq_some hr
  obtain rfl : u = (backticks ++ (b.language ++ (indent ++ "title=\""))) ++ (b.title ++
      (('"' :: more) ++ ('\n' :: (raw ++ backticks)))) := List.append_cancel_right (htext.trans (by simp))
  refine ⟨.behind (.behind (.behind ?_ _) _) _, ⟨b.language ++ (indent ++ ("title=\"" ++ (b.title ++
    ('"' :: (more ++ '\n' :: raw))))), by simp⟩, fun f n h => ?_⟩
  · have hticks : Shut Code.backticks := ⟨'\x60', rfl, by decide, by decide⟩
    exact hticks.behind ('\n' :: raw)
  · have hfront : '\n' ∉ backticks ++ (b.language ++ (indent ++ "title=\"")) := by
      simp only [List.mem_append, not_or]
      exact ⟨by decide, fun hmem => absurd (hlanguage _ hmem) (by decide), fun hmem => absurd (hindent _ hmem) (by decide),
        by decide⟩
    -- No line begins on that of the opening fence.
    rcases h.cut (.inl (by simp)) with h | h
    · obtain ⟨v, hv⟩ := h.isPrefix hfront
      cases hv
    rcases h.cut (.inr (by simp)) with h | h
    · exact .inl h.isInfix
    rcases h.cut (.inr (by simp)) with h | h
    · obtain ⟨v, hv⟩ := h.isPrefix (by simpa using hmore)
      cases hv
    · have hraw := (Lined.cons_break.1 h).before (.inr (by simp [backticks])) (not_token_of_notMem (by decide))
      right
      rw [hcode]
      exact (hraw.trim fun c hc => by obtain rfl : c = '\n' := by simpa using hc
                                      decide).isInfix

theorem Keeps.titledCode (t : Text) :
    Keeps (fun n => Lined true n t) (fun x n => Lined true n x) (fun x => Tidy t → Tidy x)
      (Renderer.shelveAll Code.titled? (fun b => return b.html) t) := by
  refine (Keeps.mapFoundM Code.takes_titled (fun n t => ?_) true fun u t b _ hr => ?_).mono (fun _ => id) (fun _ _ _ => id)
    fun x hx htidy => (hx fun u t b _ hr => ?_).tidy htidy
  · exact Text.refused_of_clear Markup.begins_code (Text.clear_of_notMem (notMem_token (by decide) n) t)
  · obtain ⟨hshut, -, hlined⟩ := Code.lined_titled hr
    refine ⟨hshut, fun f => (pure (P := fun n => Lined f n u) (Q := fun (h : Html) n => h.Holds (token n))
      (R := fun _ => True) (fun n hn => ?_) trivial).bind fun h _ => (Keeps.shelve fun _ => id).mono (fun _ => id)
        (fun _ _ _ => id) ?_⟩
    · exact (hlined f n hn).elim Code.Titled.holds_title Code.Titled.holds_code
    · rintro x ⟨n, rfl⟩
      exact free_place n
  · obtain ⟨-, ⟨v, rfl⟩, -⟩ := Code.lined_titled hr
    have hticks : Code.backticks ∈ tagParts := by simp [tagParts, lineParts]
    intro σ τ hτ hrun
    have hfront : Code.backticks ++ (v ++ Code.backticks) ++ t = Code.backticks ++ (v ++ (Code.backticks ++ t)) := by simp
    rw [hfront] at hrun
    have hstart : σ = .start := Lex.eq_start_of_part hticks hrun hτ
    rw [← List.append_assoc] at hrun
    obtain ⟨ρ, -, hend⟩ := Lex.run_append_eq_some.1 hrun
    have hclosing : Whole (Code.backticks ++ []) t := whole_of_part hticks (by decide) t
    exact ⟨hstart, (hclosing ρ τ hτ (by simpa using hend)).2⟩

/-! ## Authoring artifacts -/

section
variable {n : Nat} {line t : Text}

/-- The words for an empty section with what may stand around them. -/
theorem Artifact.saysEmpty_eq (h : saysEmpty line = true) :
    ∃ a words b, words ∈ emptySections ∧ line = a ++ (words ++ b) ∧ (∀ c ∈ a, c ∈ [' ', '\t', '_', '*', '.']) ∧
      ∀ c ∈ b, c ∈ [' ', '\t', '_', '*', '.'] := by
  have hindent {c : Char} (hc : isIndent c = true) : c ∈ [' ', '\t', '_', '*', '.'] := by
    have hc : c = ' ' ∨ c = '\t' := by simpa [isIndent] using hc
    rcases hc with rfl | rfl <;> simp
  have hemphasis {c : Char} (hc : isEmphasis c = true) : c ∈ [' ', '\t', '_', '*', '.'] := by
    have hc : c = '_' ∨ c = '*' := by simpa [isEmphasis] using hc
    rcases hc with rfl | rfl <;> simp
  have hends {t : Text} (ht : (t.dropWhile isEmphasis).all isIndent = true) : ∀ c ∈ t, c ∈ [' ', '\t', '_', '*', '.'] := by
    rw [← List.takeWhile_append_dropWhile (p := isEmphasis) (l := t)]
    refine List.forall_mem_append.2 ⟨fun c hc => hemphasis (List.mem_takeWhile_imp hc), fun c hc => hindent ?_⟩
    exact List.all_eq_true.1 ht c hc
  obtain ⟨words, hwords, hrest⟩ := List.any_eq_true.1 h
  obtain ⟨rest, hafter, hend⟩ := (Option.any_eq_true _ _).1 hrest
  refine ⟨line.takeWhile isIndent ++ (line.dropWhile isIndent).takeWhile isEmphasis, words, rest, hwords, ?_,
    List.forall_mem_append.2 ⟨fun c hc => hindent (List.mem_takeWhile_imp hc), fun c hc =>
      hemphasis (List.mem_takeWhile_imp hc)⟩, ?_⟩
  · rw [← Text.eq_append_of_after? hafter, List.append_assoc, List.takeWhile_append_dropWhile,
      List.takeWhile_append_dropWhile]
  · unfold isSectionEnd at hend
    split at hend
    · exact List.forall_mem_cons.2 ⟨by simp, hends hend⟩
    · exact hends hend

theorem Artifact.notMem_of_saysEmpty (h : saysEmpty line = true) : '<' ∉ line ∧ 'D' ∉ line := by
  obtain ⟨a, words, b, hwords, rfl, ha, hb⟩ := saysEmpty_eq h
  have hplain : ∀ words ∈ emptySections, '<' ∉ words ∧ 'D' ∉ words := by decide
  simp only [List.mem_append, not_or]
  exact ⟨⟨fun hmem => absurd (ha _ hmem) (by decide), (hplain words hwords).1, fun hmem => absurd (hb _ hmem) (by decide)⟩,
    fun hmem => absurd (ha _ hmem) (by decide), (hplain words hwords).2, fun hmem => absurd (hb _ hmem) (by decide)⟩

/-- A line that says that a section is empty stands outside of tags. -/
theorem whole_of_saysEmpty (h : Artifact.saysEmpty line = true) (t : Text) : Whole line t := by
  have hlt := (Artifact.notMem_of_saysEmpty h).1
  obtain ⟨a, words, b, hwords, rfl, ha, -⟩ := Artifact.saysEmpty_eq h
  have hpart : words ∈ tagParts := List.mem_cons_of_mem _ (List.mem_append_right _ hwords)
  intro σ τ hτ hrun
  have htext : (a ++ (words ++ b)) ++ t = a ++ (words ++ (b ++ t)) := by simp
  have htag : σ.tag = none := Lex.tag_of_part hpart (htext ▸ hrun) hτ fun hmem => absurd (ha _ hmem) (by decide)
  obtain ⟨z, tag⟩ := σ
  obtain rfl : tag = none := htag
  obtain ⟨ρ, hfront, hrest⟩ := Lex.run_append_eq_some.1 (htext ▸ hrun)
  have hsame := Lex.run_outside hfront fun hmem => hlt (List.mem_append_left _ hmem)
  have hstart : ρ = .start := Lex.eq_start_of_part hpart hrest hτ
  rw [hsame] at hstart
  rw [hstart] at hrun
  exact ⟨hstart, by rwa [(show Free (a ++ (words ++ b)) from Lex.run_plain hlt).run_append] at hrun⟩

theorem keeps_dropEmptySections (ls : List Text) :
    (∀ n, (∃ line ∈ ls, Lined true n line) → ∃ line ∈ Artifact.dropEmptySections ls, Lined true n line) ∧
      Replaces (Text.onLines ls) (Text.onLines (Artifact.dropEmptySections ls)) := by
  have hdropped {line : Text} (hblank : Artifact.saysEmpty line = true) {n : Nat} : ¬ Lined true n line :=
    fun hn => not_token_of_notMem (Artifact.notMem_of_saysEmpty hblank).2 hn.isInfix
  have hnil : Free [] := rfl
  fun_induction Artifact.dropEmptySections ls with
  | case1 => exact ⟨fun _ => id, .refl _⟩
  | case2 line hblank =>
    refine ⟨fun n hn => absurd hn (by simpa using hdropped hblank), ?_⟩
    exact .behind ((whole_of_saysEmpty hblank []).replaces hnil (.refl [])) ['\n']
  | case3 line hblank => exact ⟨fun _ => id, .refl _⟩
  | case4 line rest hne hblank ih =>
    refine ⟨fun n hn => ih.1 n (((List.exists_mem_cons_iff ..).1 hn).resolve_left (hdropped hblank)), ?_⟩
    exact (whole_of_saysEmpty hblank _).cons_break.replaces hnil ih.2
  | case5 line rest hne hblank ih =>
    refine ⟨fun n hn => (List.exists_mem_cons_iff ..).2 (((List.exists_mem_cons_iff ..).1 hn).imp_right (ih.1 n)), ?_⟩
    exact .behind (.behind ih.2 line) ['\n']

/-- A tidy text holds no mark of a generated region. -/
theorem Tidy.removeMarks (h : Tidy t) : Artifact.removeMarks t = t := by
  refine Text.mapFound_of_refused fun a b hab _ => ?_
  rw [List.append_nil]
  cases hr : Artifact.mark? b with
  | none => rfl
  | some p =>
    exfalso
    obtain ⟨⟨⟩, rest⟩ := p
    obtain ⟨bs, inside, more, hbs, -, -, hmark⟩ := Artifact.mark?_eq_some hr
    obtain ⟨σ, τ, hrun, hτ⟩ := h.suffix ⟨a, hab.symm⟩
    have htext : b = '<' :: (("!--" ++ bs) ++ ("AUTO:" ++ (inside ++ '>' :: (more ++ rest)))) := by simp [hmark]
    rw [htext] at hrun
    have htag := Lex.tag_of_bracket hrun
    obtain ⟨ρ, hstep, hrest⟩ := Lex.run_cons_eq_some.1 hrun
    obtain rfl : { σ with tag := some [] } = ρ := by simpa [Lex.step, htag] using hstep
    have hauto : ("AUTO:" : Text) ∈ tagParts := by simp [tagParts, lineParts]
    have hgt : '>' ∉ ("!--" : Text) ++ bs := by
      simp only [List.mem_append, not_or]
      exact ⟨by decide, fun hmem => absurd (hbs _ hmem) (by decide)⟩
    cases Lex.tag_of_part hauto hrest hτ hgt

theorem Tidy.artifact_strip (h : Tidy t) :
    Tidy (Artifact.strip t) ∧ ∀ n, Lined true n t → Lined true n (Artifact.strip t) := by
  rw [Artifact.strip, h.removeMarks]
  obtain ⟨ls, hls, rfl⟩ : ∃ ls, Text.lines t = ls ∧ t = Text.join "\n" ls := ⟨_, rfl, (Text.join_splitAt '\n' t).symm⟩
  obtain ⟨hlined, hreplaces⟩ := keeps_dropEmptySections ls
  rw [hls]
  exact ⟨Tidy.join_iff.2 (hreplaces.tidy (Tidy.join_iff.1 h)), fun n hn => Lined.join_iff.2 (hlined n (Lined.join_iff.1 hn))⟩

end

end DocPages
