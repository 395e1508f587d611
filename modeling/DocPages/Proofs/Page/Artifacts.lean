import DocPages.Proofs.Page.Anatomy
import DocPages.Proofs.Text.Lines

/-!
# Lines around authoring artifacts

A mark of a generated region goes with the blanks and the line break behind it, a line that says that a section is empty
with its own line break. So a line without a part of a mark stays where it is, between what is left of the text in front
of it and what is left of the text behind it. It stays a line of its own exactly if what the marks leave in front of it is
made of whole lines: a mark with anything else in front of it, if only blanks, joins the next line to its own.
-/

namespace DocPages

open Text (Complete LineEnd OwnLine)

namespace Artifact

/-! ## Lines that are dropped -/

/-- The text without the lines that say that a section is empty. -/
def dropLines (t : Text) : Text := Text.join "\n" (dropEmptySections (Text.lines t))

/-- The lines of a text that stay when a line follows, each with its line break. -/
def keptLines (t : Text) : Text :=
  ((Text.lines t).filter fun line => !saysEmpty line).flatMap fun line => line ++ ['\n']

theorem strip_eq (t : Text) : strip t = dropLines (removeMarks t) := rfl

theorem dropEmptySections_ne_nil {ls : List Text} (h : ls ≠ []) : dropEmptySections ls ≠ [] := by
  induction ls with
  | nil => exact absurd rfl h
  | cons line ls ih =>
    cases ls with
    | nil => cases hempty : saysEmpty line <;> simp [dropEmptySections, hempty]
    | cons next ls => cases hempty : saysEmpty line <;> simp [dropEmptySections, hempty, ih]

theorem dropEmptySections_append (ls : List Text) {more : List Text} (hne : more ≠ []) :
    dropEmptySections (ls ++ more) = (ls.filter fun line => !saysEmpty line) ++ dropEmptySections more := by
  induction ls with
  | nil => rfl
  | cons line ls ih =>
    obtain ⟨next, rest, hrest⟩ := List.exists_cons_of_ne_nil (show ls ++ more ≠ [] by simp [hne])
    rw [List.cons_append, hrest, dropEmptySections, ← hrest, ih]
    · cases hempty : saysEmpty line <;> simp [hempty]
    · simp

section
variable {line s t u : Text}

theorem dropLines_break (s t : Text) : dropLines (s ++ '\n' :: t) = keptLines s ++ dropLines t := by
  have hlines : Text.lines t ≠ [] := splitWhere_ne_nil _ t
  rw [dropLines, Text.lines_append_break, dropEmptySections_append _ hlines,
    Text.join_append _ (dropEmptySections_ne_nil hlines)]
  rfl

theorem dropLines_cons_break (t : Text) : dropLines ('\n' :: t) = '\n' :: dropLines t := dropLines_break [] t

theorem complete_keptLines (t : Text) : Complete (keptLines t) := by
  rw [keptLines]
  induction (Text.lines t).filter fun line => !saysEmpty line with
  | nil => exact .nil
  | cons line ls ih =>
    rw [List.flatMap_cons]
    exact (Complete.break line).append ih

/-- What is dropped of whole lines does not depend on what follows. -/
theorem exists_dropLines (h : Complete s) : ∃ k, Complete k ∧ ∀ t, dropLines (s ++ t) = k ++ dropLines t := by
  rcases List.eq_nil_or_concat s with rfl | ⟨u, c, rfl⟩
  · exact ⟨[], .nil, fun t => rfl⟩
  · obtain rfl : c = '\n' := h c (by simp)
    refine ⟨keptLines u, complete_keptLines u, fun t => ?_⟩
    rw [List.concat_eq_append, List.append_assoc]
    exact dropLines_break u t

theorem dropLines_of_unbroken (h : '\n' ∉ line) : dropLines line = if saysEmpty line then [] else line := by
  rw [dropLines, Text.lines_of_unbroken h, dropEmptySections]
  split <;> rfl

/-- In front of a line break or the end a line is kept or dropped as a whole. -/
theorem dropLines_line (h : '\n' ∉ line) (ht : LineEnd t) :
    dropLines (line ++ t) = if saysEmpty line then dropLines (t.drop 1) else line ++ dropLines t := by
  rcases ht.eq_nil_or_cons with rfl | ⟨t, rfl⟩
  · rw [List.append_nil, dropLines_of_unbroken h]
    split
    · rfl
    · exact (List.append_nil line).symm
  · have hkept : keptLines line = if saysEmpty line then [] else line ++ ['\n'] := by
      rw [keptLines, Text.lines_of_unbroken h]
      cases hempty : saysEmpty line <;> simp [hempty]
    rw [dropLines_break, dropLines_cons_break, hkept]
    split <;> simp

theorem lineEnd_dropLines (h : LineEnd t) : LineEnd (dropLines t) := by
  rcases h.eq_nil_or_cons with rfl | ⟨t, rfl⟩
  · exact .nil
  · rw [dropLines_cons_break]
    exact .break _

theorem length_dropLines_drop_le (h : LineEnd t) : (dropLines (t.drop 1)).length ≤ (dropLines t).length := by
  rcases h.eq_nil_or_cons with rfl | ⟨t, rfl⟩
  · exact Nat.le_refl _
  · rw [dropLines_cons_break]
    exact Nat.le_succ _

end

/-! ## Marks that are taken out -/

/-- What a mark leaves of the text behind its comment. -/
def behindMark (t : Text) : Text :=
  match t.dropWhile isIndent with
  | '\n' :: t => t
  | t => t

section
variable {s t u line a b : Text}

theorem after?_suffix {lead : Text} (h : Text.after? lead t = some u) : u <:+ t :=
  ⟨lead, (Text.eq_append_of_after? h).symm⟩

theorem after?_append_cons {lead : Text} {c : Char} (hc : c ∉ lead) (s t : Text) :
    Text.after? lead (s ++ c :: t) = (Text.after? lead s).map (· ++ c :: t) := by
  induction lead generalizing s with
  | nil => simp
  | cons d lead ih =>
    obtain ⟨hd, hlead⟩ : c ≠ d ∧ c ∉ lead := by simpa using hc
    cases s with
    | nil => simp [Text.after?, hd.symm]
    | cons e s =>
      by_cases he : d = e
      · simp [Text.after?, he, ih hlead]
      · simp [Text.after?, he]

theorem dropBlanks_append_bracket (s t : Text) : Text.dropBlanks (s ++ '>' :: t) = Text.dropBlanks s ++ '>' :: t := by
  have hbracket : isBlank '>' = false := by decide
  induction s with
  | nil => simp [Text.dropBlanks, Text.trimStart, hbracket]
  | cons c s ih =>
    by_cases hc : isBlank c = true
    · simpa [Text.dropBlanks, Text.trimStart, hc] using ih
    · simp [Text.dropBlanks, Text.trimStart, hc]

/-- In front of the first bracket only two hyphens end a comment. -/
theorem after?_close (hs : '>' ∉ s) (t : Text) :
    Text.after? "-->" (s ++ '>' :: t) = if s = ['-', '-'] then some t else none := by
  match s with
  | [] => simp [Text.after?]
  | [c] =>
    by_cases hc : '-' = c <;> simp [Text.after?, hc]
  | [c, d] =>
    by_cases hc : c = '-' <;> by_cases hd : d = '-' <;> simp [Text.after?, hc, hd, eq_comm (a := '-')]
  | c :: d :: e :: s =>
    have he : '>' ≠ e := fun heq => hs (heq ▸ List.mem_cons_of_mem c (List.mem_cons_of_mem d List.mem_cons_self))
    simp [Text.after?, he]

/-- Whether a comment ends a mark is told by what stands in it. -/
theorem markEnd?_append (hs : '>' ∉ s) (t : Text) :
    markEnd? (s ++ '>' :: t) = (markEnd? (s ++ ['>'])).map fun _ => t := by
  have hword (t : Text) : (Text.after? ":START" (s ++ '>' :: t)).or (Text.after? ":END" (s ++ '>' :: t)) =
      ((Text.after? ":START" s).or (Text.after? ":END" s)).map (· ++ '>' :: t) := by
    rw [after?_append_cons (by decide), after?_append_cons (by decide), Option.map_or]
  have hrest : ∀ u ∈ (Text.after? ":START" s).or (Text.after? ":END" s), '>' ∉ Text.dropBlanks u := by
    intro u hu hmem
    have hsuffix : u <:+ s := by
      rcases Option.or_eq_some_iff.1 hu with hu | ⟨-, hu⟩
      · exact after?_suffix hu
      · exact after?_suffix hu
    exact hs (hsuffix.subset ((List.dropWhile_suffix _).subset hmem))
  simp only [markEnd?, Option.bind_eq_bind, hword]
  cases hu : (Text.after? ":START" s).or (Text.after? ":END" s) with
  | none => rfl
  | some u =>
    simp only [Option.map_some, Option.bind_some, dropBlanks_append_bracket, after?_close (hrest u hu)]
    split <;> rfl

theorem afterMarkEnd?_append (hs : '>' ∉ s) (t : Text) :
    afterMarkEnd? (s ++ '>' :: t) = (afterMarkEnd? (s ++ ['>'])).map fun _ => t := by
  induction s with
  | nil => simp [afterMarkEnd?, markEnd?, Text.after?]
  | cons c s ih =>
    obtain ⟨hc, hrest⟩ : '>' ≠ c ∧ '>' ∉ s := by simpa using hs
    have hfront := markEnd?_append hs t
    rw [List.cons_append] at hfront
    rw [List.cons_append, List.cons_append, afterMarkEnd?, afterMarkEnd?, hfront, if_neg hc.symm, if_neg hc.symm, ih hrest,
      ← List.cons_append, Option.map_or]

theorem behindMark_of_break (h : t.dropWhile isIndent = '\n' :: u) : behindMark t = u := by
  rw [behindMark, h]
  rfl

theorem behindMark_of_no_break (h : ∀ u, t.dropWhile isIndent ≠ '\n' :: u) : behindMark t = t.dropWhile isIndent := by
  rw [behindMark]
  split
  · next u hu => exact absurd hu (h u)
  · rfl

theorem mark?_eq (t : Text) : mark? t = (Text.after? "<!--" t).bind fun u =>
    (Text.after? "AUTO:" (Text.dropBlanks u)).bind fun v => (afterMarkEnd? v).map fun w => ((), behindMark w) := by
  simp only [mark?, Option.bind_eq_bind]
  refine Option.bind_congr fun u _ => Option.bind_congr fun v _ => ?_
  cases afterMarkEnd? v with
  | none => rfl
  | some w =>
    rw [Option.bind_some, Option.map_some]
    by_cases hbreak : ∃ x, w.dropWhile isIndent = '\n' :: x
    · obtain ⟨x, hx⟩ := hbreak
      rw [behindMark_of_break hx, hx]
      rfl
    · rw [behindMark_of_no_break (not_exists.1 hbreak)]
      split
      · next x hx => exact absurd ⟨x, hx⟩ hbreak
      · rfl

/-- What stands behind the comment of a mark says nothing about the mark. -/
theorem mark?_append (hs : '>' ∉ s) (t : Text) :
    mark? (s ++ '>' :: t) = (mark? (s ++ ['>'])).map fun _ => ((), behindMark t) := by
  simp only [mark?_eq, after?_append_cons (show '>' ∉ ("<!--" : Text) by decide), Option.bind_map, Option.map_bind]
  refine Option.bind_congr fun u hu => ?_
  have hu' : '>' ∉ Text.dropBlanks u := fun hmem =>
    hs ((after?_suffix hu).subset ((List.dropWhile_suffix _).subset hmem))
  simp only [Function.comp_apply, dropBlanks_append_bracket, after?_append_cons (show '>' ∉ ("AUTO:" : Text) by decide),
    Option.bind_map, Option.map_bind]
  refine Option.bind_congr fun v hv => ?_
  have hv' : '>' ∉ v := fun hmem => hu' ((after?_suffix hv).subset hmem)
  have hread := afterMarkEnd?_append hv' t
  cases hend : afterMarkEnd? (v ++ ['>']) <;> simp [hread, hend]

/-- A mark is a comment up to the first bracket. -/
theorem exists_bracket_of_mark? {r : Text} (h : mark? t = some ((), r)) :
    ∃ s u, '>' ∉ s ∧ t = s ++ '>' :: u ∧ r = behindMark u := by
  obtain ⟨b, inside, more, hb, hinside, -, ht⟩ := mark?_eq_some h
  have hblank : '>' ∉ b := fun hmem => absurd (hb _ hmem) (by decide)
  have hs : '>' ∉ "<!--" ++ (b ++ ("AUTO:" ++ inside)) :=
    List.not_mem_append (by decide) (List.not_mem_append hblank (List.not_mem_append (by decide) hinside))
  have htext : t = ("<!--" ++ (b ++ ("AUTO:" ++ inside))) ++ '>' :: (more ++ r) := by rw [ht]; simp
  refine ⟨_, _, hs, htext, ?_⟩
  rw [htext, mark?_append hs] at h
  obtain ⟨-, -, hr⟩ := Option.map_eq_some_iff.1 h
  exact (Prod.mk.inj hr).2.symm

theorem behindMark_suffix (t : Text) : behindMark t <:+ t := by
  have hsuffix := List.dropWhile_suffix isIndent (l := t)
  by_cases hbreak : ∃ u, t.dropWhile isIndent = '\n' :: u
  · obtain ⟨u, hu⟩ := hbreak
    rw [behindMark_of_break hu]
    exact (hu ▸ List.suffix_cons '\n' u).trans hsuffix
  · rw [behindMark_of_no_break (not_exists.1 hbreak)]
    exact hsuffix

/-- Behind whole lines a mark takes nothing. -/
theorem behindMark_append (hne : t ≠ []) (h : Complete t) (u : Text) : behindMark (t ++ u) = behindMark t ++ u := by
  have hrest : t.dropWhile isIndent ≠ [] := by
    intro hnil
    rcases List.eq_nil_or_concat t with rfl | ⟨s, c, rfl⟩
    · exact hne rfl
    · have hc : isIndent c = true := List.dropWhile_eq_nil_iff.1 hnil c (by simp)
      obtain rfl : c = '\n' := h c (by simp)
      cases hc
  have hdrop : (t ++ u).dropWhile isIndent = t.dropWhile isIndent ++ u := by
    rw [List.dropWhile_append, List.isEmpty_eq_false_iff.2 hrest]
    rfl
  by_cases hbreak : ∃ x, t.dropWhile isIndent = '\n' :: x
  · obtain ⟨x, hx⟩ := hbreak
    rw [behindMark_of_break hx, behindMark_of_break (u := x ++ u) (by rw [hdrop, hx]; rfl)]
  · have hother : ∀ x, (t ++ u).dropWhile isIndent ≠ '\n' :: x := by
      intro x hx
      obtain ⟨c, v, hv⟩ := List.exists_cons_of_ne_nil hrest
      rw [hdrop, hv] at hx
      exact hbreak ⟨v, by rw [hv, (List.cons.inj hx).1]⟩
    rw [behindMark_of_no_break hother, behindMark_of_no_break (not_exists.1 hbreak), hdrop]

/-! ## A line without a part of a mark -/

/-- No mark takes a part of the line: one that begins in front of its end leaves the line and what stands behind it. -/
def Untouched (a line b : Text) : Prop :=
  ∀ v, v <:+ a ++ line → v ≠ [] → ∀ p ∈ mark? (v ++ b), line ++ b <:+ p.2

instance (a line b : Text) : Decidable (Untouched a line b) :=
  decidable_of_iff (∀ v ∈ (a ++ line).tails, v ≠ [] → ∀ p ∈ mark? (v ++ b), line ++ b <:+ p.2)
    (by simp only [Untouched, List.mem_tails])

theorem Untouched.suffix (h : Untouched (s ++ a) line b) : Untouched a line b := fun v hv =>
  h v (hv.trans ⟨s, by simp⟩)

/-- No mark begins in the line. -/
theorem Untouched.refused (h : Untouched a line b) : Refused mark? line b := by
  intro x y hline hy
  cases hread : mark? (y ++ b) with
  | none => rfl
  | some p =>
    have hsuffix := h y ⟨a ++ x, by simp [hline]⟩ hy p hread
    obtain ⟨s, hs, hrest⟩ := takes_mark _ p.1 p.2 hread
    have hlen := hsuffix.length_le
    have hlen' := congrArg List.length hrest
    have hpos := List.length_pos_iff.2 hs
    simp only [hline, List.length_append] at hlen hlen'
    omega

/-- A mark in front of the line is read alike with and without it. -/
theorem mark?_front (hcomplete : Complete a) (h : Untouched a line b) (hne : a ≠ []) :
    mark? (a ++ (line ++ b)) = (mark? a).map fun p => ((), p.2 ++ (line ++ b)) := by
  by_cases hbracket : '>' ∈ a
  · obtain ⟨s, u, rfl, hs⟩ := List.eq_append_cons_of_mem hbracket
    have hu : Complete u := Complete.behind (s := s ++ ['>']) (by simpa using hcomplete)
    have hune : u ≠ [] := by
      rintro rfl
      exact absurd (hcomplete '>' (by simp)) (by decide)
    rw [List.append_assoc, List.cons_append, mark?_append hs (u ++ (line ++ b)), mark?_append hs u,
      behindMark_append hune hu, Option.map_map]
    rfl
  · have hnone : mark? a = none := by
      by_contra hread
      obtain ⟨p, hp⟩ := Option.ne_none_iff_exists'.1 hread
      obtain ⟨s, u, -, rfl, -⟩ := exists_bracket_of_mark? (r := p.2) hp
      exact hbracket (by simp)
    rw [hnone, Option.map_none]
    by_contra hread
    obtain ⟨p, hp⟩ := Option.ne_none_iff_exists'.1 hread
    obtain ⟨s, u, -, htext, hrest⟩ := exists_bracket_of_mark? (r := p.2) hp
    -- The bracket stands behind `a`, so what the mark leaves is too short for the line and the text behind it.
    have hlen := (h (a ++ line) (List.suffix_refl _) (by simp [hne]) p (by simpa using hp)).length_le
    have hu := hrest ▸ (behindMark_suffix u).length_le
    rcases List.append_eq_append_iff.1 htext with ⟨x, rfl, hx⟩ | ⟨x, rfl, hx⟩
    · have := congrArg List.length hx
      simp only [List.length_append, List.length_cons] at this hlen
      omega
    · cases x with
      | nil =>
        have := congrArg List.length hx
        simp only [List.nil_append, List.length_append, List.length_cons] at this hlen
        omega
      | cons c x =>
        obtain rfl : '>' = c := (List.cons.inj hx).1
        exact hbracket (by simp)

/-- The marks in front of the line and those behind it are taken out as if the line were not there. -/
theorem removeMarks_around (hcomplete : Complete a) (h : Untouched a line b) :
    removeMarks (a ++ (line ++ b)) = removeMarks a ++ (line ++ removeMarks b) := by
  induction a using takes_mark.induction with
  | nil => exact Text.mapFound_append h.refused
  | kept c a hread ih =>
    have hnone : mark? (c :: (a ++ (line ++ b))) = none := by
      rw [← List.cons_append, mark?_front hcomplete h (by simp), hread, Option.map_none]
    have hrest := ih (hcomplete.behind (s := [c])) (h.suffix (s := [c]))
    simp only [removeMarks] at hrest ⊢
    rw [List.cons_append, Text.mapFound_kept hnone, Text.mapFound_kept hread, hrest, List.cons_append]
  | found s a p hs hread ih =>
    have hfound : mark? (s ++ (a ++ (line ++ b))) = some ((), a ++ (line ++ b)) := by
      rw [← List.append_assoc, mark?_front hcomplete h (by simp [hs]), hread]
      rfl
    have hrest := ih hcomplete.behind h.suffix
    simp only [removeMarks] at hrest ⊢
    rw [List.append_assoc, Text.mapFound_front hs hfound, Text.mapFound_front hs hread, hrest]
    rfl

theorem lineEnd_removeMarks (h : LineEnd b) : LineEnd (removeMarks b) := by
  rcases h.eq_nil_or_cons with rfl | ⟨b, rfl⟩
  · exact .nil
  · have hread : mark? ('\n' :: b) = none := by simp [mark?, Text.after?]
    rw [removeMarks, Text.mapFound_kept hread]
    exact .break _

/-- A line that is not blank, says nothing of an empty section and has no part of a mark stays a line of its own between
what is left of the text around it, exactly if the marks leave whole lines in front of it. -/
theorem survives_iff (hline : OwnLine a line b) (hblank : Text.isBlank line = false) (hwords : saysEmpty line = false)
    (hfree : Untouched a line b) :
    (strip (a ++ (line ++ b)) = strip a ++ (line ++ strip b) ∧ OwnLine (strip a) line (strip b)) ↔
      Complete (removeMarks a) := by
  obtain ⟨s, p, hfront, hs, hp⟩ := Text.exists_complete (removeMarks a)
  obtain ⟨k, hk, hkeep⟩ := exists_dropLines hs
  have hbehind := lineEnd_removeMarks hline.ended
  have hempty : saysEmpty [] = false := by decide
  have hstrip : strip a = k ++ if saysEmpty p then [] else p := by
    rw [strip_eq, hfront, hkeep, dropLines_of_unbroken hp]
  have hwhole : strip (a ++ (line ++ b)) =
      k ++ if saysEmpty (p ++ line) then dropLines ((removeMarks b).drop 1) else p ++ (line ++ strip b) := by
    rw [strip_eq, removeMarks_around hline.complete hfree, hfront, List.append_assoc, hkeep, ← List.append_assoc p,
      dropLines_line (List.not_mem_append hp hline.unbroken) hbehind, List.append_assoc]
    rfl
  constructor
  · rintro ⟨hsplit, hown⟩
    suffices hnil : p = [] by rw [hfront, hnil, List.append_nil]; exact hs
    cases hfrontEmpty : saysEmpty p with
    | false =>
      -- What stands on the line in front of `line` stays there.
      have hcomplete := hown.complete
      rw [hstrip, if_neg (by simp [hfrontEmpty])] at hcomplete
      exact hcomplete.eq_nil hp
    | true =>
      rw [hwhole, hstrip, if_pos hfrontEmpty, List.append_nil] at hsplit
      have hlen := congrArg List.length (List.append_cancel_left hsplit)
      split at hlen
      · -- With `line` behind it, it still says that the section is empty, so `line` is dropped too.
        have hle : (dropLines ((removeMarks b).drop 1)).length ≤ (strip b).length := length_dropLines_drop_le hbehind
        have hnil : line = [] := List.length_eq_zero_iff.1 (by rw [List.length_append] at hlen; omega)
        rw [hnil] at hblank
        cases hblank
      · simp only [List.length_append] at hlen
        exact List.length_eq_zero_iff.1 (by omega)
  · intro hcomplete
    obtain rfl : p = [] := Complete.eq_nil (hfront ▸ hcomplete) hp
    rw [hwhole, hstrip]
    simp only [hempty, List.nil_append, List.append_nil, hwords, Bool.false_eq_true, if_false, ite_self]
    exact ⟨trivial, hk, hline.unbroken, lineEnd_dropLines hbehind⟩

end

theorem survives_iff_own_line :
    let a : Text := "Intro\n<!-- AUTO:A:START -->\n<!-- AUTO:B:START --> \nNo headers.\n"
    let line : Text := "Real text --> *No headers*"
    let b : Text := "\n<!-- AUTO:B:END -->\n"
    (OwnLine a line b ∧ Text.isBlank line = false ∧ saysEmpty line = false ∧ Untouched a line b) ∧
      strip (a ++ (line ++ b)) = strip a ++ (line ++ strip b) ∧ OwnLine (strip a) line (strip b) := by
  intro a line b
  have hline : OwnLine a line b := by decide +kernel
  have hblank : Text.isBlank line = false := by decide +kernel
  have hwords : saysEmpty line = false := by decide +kernel
  have hfree : Untouched a line b := by decide +kernel
  exact ⟨⟨hline, hblank, hwords, hfree⟩, (survives_iff hline hblank hwords hfree).2 (by decide +kernel)⟩

/-- A heading behind a mark that ends a line of text becomes a part of that line. -/
theorem line_joined_behind_mark :
    let a : Text := "Some text <!-- AUTO:PARAMS:END -->\n"
    let line : Text := "# Next"
    (OwnLine a line [] ∧ Text.isBlank line = false ∧ saysEmpty line = false ∧ Untouched a line []) ∧
      strip (a ++ line) = "Some text # Next" ∧ line ∉ Text.lines (strip (a ++ line)) := by
  decide +kernel

end Artifact

end DocPages
