import DocPages.Text.Basic

/-!
# Lines

Texts without line breaks, put together as lines, are the lines of the text that comes out. A text that ends with a line
break is made of whole lines, and what follows begins a line of its own.
-/

namespace DocPages

section
variable {α : Type} {p : α → Bool} {s t : List α} {a : α}

theorem splitWhere_of_none (h : ∀ a ∈ s, p a = false) : splitWhere p s = [s] := by
  induction s with
  | nil => rfl
  | cons b s ih =>
    rw [splitWhere, ih fun a ha => h a (List.mem_cons_of_mem b ha), h b List.mem_cons_self]
    rfl

/-- A list is split at each separator. -/
theorem splitWhere_append (ha : p a = true) (s t : List α) :
    splitWhere p (s ++ a :: t) = splitWhere p s ++ splitWhere p t := by
  induction s with
  | nil => simp [splitWhere, ha]
  | cons b s ih =>
    obtain ⟨first, rest, hs⟩ := List.exists_cons_of_ne_nil (splitWhere_ne_nil p s)
    rw [List.cons_append, splitWhere, splitWhere, ih, hs]
    split <;> rfl

theorem not_of_mem_splitWhere {part : List α} (h : part ∈ splitWhere p s) : ∀ a ∈ part, p a = false := by
  induction s generalizing part with
  | nil =>
    obtain rfl : part = [] := by simpa [splitWhere] using h
    simp
  | cons b s ih =>
    rw [splitWhere] at h
    split at h
    · rcases List.mem_cons.1 h with rfl | h
      · simp
      · exact ih h
    · next hb =>
      cases hs : splitWhere p s with
      | nil => exact absurd hs (splitWhere_ne_nil p s)
      | cons first rest =>
        rw [hs] at h
        rcases List.mem_cons.1 h with rfl | h
        · exact List.forall_mem_cons.2 ⟨by simpa using hb, ih (by simp [hs])⟩
        · exact ih (by simp [hs, h])

theorem splitWhere_cons_of_not {first : List α} {rest : List (List α)} (ha : p a = false)
    (h : splitWhere p s = first :: rest) : splitWhere p (a :: s) = (a :: first) :: rest := by
  rw [splitWhere, ha, h]
  rfl

theorem splitWhere_append_of_none {first : List α} {rest : List (List α)} (hs : ∀ a ∈ s, p a = false)
    (h : splitWhere p t = first :: rest) : splitWhere p (s ++ t) = (s ++ first) :: rest := by
  induction s with
  | nil => exact h
  | cons b s ih =>
    obtain ⟨hb, hs⟩ := List.forall_mem_cons.1 hs
    exact splitWhere_cons_of_not hb (ih hs)

/-- The stretches between the entries that satisfy `p`, those without entries left out. -/
def splitFilled (p : α → Bool) (as : List α) : List (List α) := (splitWhere p as).filter (!·.isEmpty)

theorem of_mem_splitFilled {part : List α} (h : part ∈ splitFilled p s) : part ≠ [] ∧ ∀ a ∈ part, p a = false := by
  obtain ⟨hmem, hne⟩ := List.mem_filter.1 h
  exact ⟨by simpa using hne, not_of_mem_splitWhere hmem⟩

theorem splitFilled_append (ha : p a = true) (s t : List α) :
    splitFilled p (s ++ a :: t) = splitFilled p s ++ splitFilled p t := by
  rw [splitFilled, splitWhere_append ha, List.filter_append]
  rfl

theorem splitFilled_front (h : ∀ a ∈ s, p a = true) (t : List α) : splitFilled p (s ++ t) = splitFilled p t := by
  induction s with
  | nil => rfl
  | cons a s ih =>
    obtain ⟨ha, hs⟩ := List.forall_mem_cons.1 h
    exact (splitFilled_append ha [] (s ++ t)).trans (ih hs)

theorem splitFilled_behind (h : ∀ a ∈ t, p a = true) (s : List α) : splitFilled p (s ++ t) = splitFilled p s := by
  cases t with
  | nil => rw [List.append_nil]
  | cons a t =>
    obtain ⟨ha, ht⟩ := List.forall_mem_cons.1 h
    have hnone : splitFilled p (t ++ []) = [] := splitFilled_front ht []
    rw [splitFilled_append ha, ← List.append_nil t, hnone, List.append_nil]

theorem splitFilled_of_none (hne : s ≠ []) (h : ∀ a ∈ s, p a = false) : splitFilled p s = [s] := by
  rw [splitFilled, splitWhere_of_none h]
  simpa using hne

/-- A part that holds nothing to split at stands in one of the pieces. -/
theorem exists_piece_of_infix {part : List α} (hpart : ∀ a ∈ part, p a = false) (h : part <:+: s) :
    ∃ piece ∈ splitWhere p s, part <:+: piece := by
  obtain ⟨front, back, rfl⟩ := h
  rw [List.append_assoc]
  induction front with
  | nil =>
    obtain ⟨first, rest, hback⟩ := List.exists_cons_of_ne_nil (splitWhere_ne_nil p back)
    rw [List.nil_append, splitWhere_append_of_none hpart hback]
    exact ⟨part ++ first, List.mem_cons_self, (List.prefix_append part first).isInfix⟩
  | cons b front ih =>
    obtain ⟨piece, hmem, hpiece⟩ := ih
    obtain ⟨first, rest, hsplit⟩ := List.exists_cons_of_ne_nil (splitWhere_ne_nil p (front ++ (part ++ back)))
    rw [List.cons_append]
    by_cases hb : p b = true
    · rw [splitWhere, if_pos hb]
      exact ⟨piece, List.mem_cons_of_mem _ hmem, hpiece⟩
    · rw [splitWhere_cons_of_not (Bool.eq_false_iff.2 hb) hsplit]
      rw [hsplit] at hmem
      rcases List.mem_cons.1 hmem with rfl | hmem
      · exact ⟨b :: piece, List.mem_cons_self, hpiece.trans (List.suffix_cons b piece).isInfix⟩
      · exact ⟨piece, List.mem_cons_of_mem _ hmem, hpiece⟩

end

namespace Text

theorem join_cons_cons (sep s t : Text) (ts : List Text) :
    join sep (s :: t :: ts) = s ++ (sep ++ join sep (t :: ts)) := by
  simp [join]

theorem join_append_join (sep : Text) {ss ts : List Text} (hs : ss ≠ []) (ht : ts ≠ []) :
    join sep (ss ++ ts) = join sep ss ++ (sep ++ join sep ts) := by
  induction ss with
  | nil => exact absurd rfl hs
  | cons s ss ih =>
    cases ss with
    | nil =>
      obtain ⟨t, ts, rfl⟩ := List.exists_cons_of_ne_nil ht
      exact join_cons_cons sep s t ts
    | cons u ss =>
      rw [List.cons_append, List.cons_append, join_cons_cons, ← List.cons_append, ih (by simp), join_cons_cons]
      simp only [List.append_assoc]

theorem join_concat (sep : Text) {ts : List Text} (hne : ts ≠ []) (t : Text) :
    join sep (ts ++ [t]) = join sep ts ++ (sep ++ t) := join_append_join sep hne (List.cons_ne_nil t [])

theorem join_ne_nil {s : Text} (hs : s ≠ []) (sep : Text) (ts : List Text) : join sep (s :: ts) ≠ [] := by
  cases ts with
  | nil => exact hs
  | cons t ts => simp [join_cons_cons, hs]

theorem splitAt_of_notMem {sep : Char} {t : Text} (h : sep ∉ t) : splitAt sep t = [t] :=
  splitWhere_of_none fun _ hc => beq_false_of_ne fun heq => h (heq ▸ hc)

theorem splitAt_append (sep : Char) (s t : Text) : splitAt sep (s ++ sep :: t) = splitAt sep s ++ splitAt sep t :=
  splitWhere_append (p := (· == sep)) (beq_self_eq_true sep) s t

/-- Filled texts are joined as a whole or in two parts, of which either may have none. -/
theorem join_append_parts (sep : Text) {ss ts : List Text} (hs : ∀ s ∈ ss, s ≠ []) (ht : ∀ t ∈ ts, t ≠ []) :
    join sep (ss ++ ts) = join sep ([join sep ss, join sep ts].filter (!·.isEmpty)) := by
  have hfilled {us : List Text} (hu : ∀ u ∈ us, u ≠ []) (hne : us ≠ []) : (join sep us).isEmpty = false := by
    obtain ⟨u, us, rfl⟩ := List.exists_cons_of_ne_nil hne
    exact List.isEmpty_eq_false_iff.2 (join_ne_nil (hu u List.mem_cons_self) sep us)
  by_cases hss : ss = []
  · subst hss
    by_cases hts : ts = []
    · subst hts
      rfl
    · simp [hfilled ht hts, join]
  · by_cases hts : ts = []
    · subst hts
      simp [hfilled hs hss, join]
    · simp [hfilled hs hss, hfilled ht hts, join, join_append_join sep hss hts]

/-- Texts that do not hold the separator are what their join is split into. -/
theorem splitAt_join {sep : Char} {ts : List Text} (hne : ts ≠ []) (h : ∀ t ∈ ts, sep ∉ t) :
    splitAt sep (join [sep] ts) = ts := by
  induction ts with
  | nil => exact absurd rfl hne
  | cons s ts ih =>
    cases ts with
    | nil => exact splitAt_of_notMem (h s List.mem_cons_self)
    | cons t ts =>
      have hrest := ih (by simp) fun u hu => h u (List.mem_cons_of_mem s hu)
      rw [join_cons_cons, List.singleton_append, splitAt_append, hrest, splitAt_of_notMem (h s List.mem_cons_self)]
      rfl

theorem lines_of_unbroken {t : Text} (h : '\n' ∉ t) : lines t = [t] := splitAt_of_notMem h

theorem lines_append_break (s t : Text) : lines (s ++ '\n' :: t) = lines s ++ lines t := splitAt_append '\n' s t

theorem lines_join {ls : List Text} (hne : ls ≠ []) (h : ∀ line ∈ ls, '\n' ∉ line) : lines (join "\n" ls) = ls :=
  splitAt_join hne h

theorem join_append (ls : List Text) {more : List Text} (hne : more ≠ []) :
    join "\n" (ls ++ more) = (ls.flatMap fun line => line ++ ['\n']) ++ join "\n" more := by
  induction ls with
  | nil => rfl
  | cons line ls ih =>
    obtain ⟨next, rest, hrest⟩ := List.exists_cons_of_ne_nil (show ls ++ more ≠ [] by simp [hne])
    rw [List.cons_append, hrest, join_cons_cons, ← hrest, ih, List.flatMap_cons]
    simp

/-- A part of joined lines that holds no break is a part of a line. -/
theorem exists_line_of_infix_join {ls : List Text} {part : Text} (hne : part ≠ []) (hpart : '\n' ∉ part)
    (hls : ∀ line ∈ ls, '\n' ∉ line) (h : part <:+: join "\n" ls) : ∃ line ∈ ls, part <:+: line := by
  cases ls with
  | nil => exact absurd (List.infix_nil.1 h) hne
  | cons first rest =>
    have hplain : ∀ c ∈ part, (c == '\n') = false := fun c hc => beq_false_of_ne fun heq => hpart (heq ▸ hc)
    have hmem := exists_piece_of_infix hplain h
    rwa [show splitWhere (· == '\n') (join "\n" (first :: rest)) = first :: rest from lines_join (by simp) hls] at hmem

/-- The texts, each behind a line break. -/
def onLines (ls : List Text) : Text := ls.flatMap ('\n' :: ·)

theorem onLines_cons (s : Text) (ls : List Text) : onLines (s :: ls) = '\n' :: (s ++ onLines ls) := rfl

theorem onLines_append (ls ms : List Text) : onLines (ls ++ ms) = onLines ls ++ onLines ms := List.flatMap_append

/-- Lines that are joined have a line break in front of each but the first. -/
theorem join_cons (s : Text) (ls : List Text) : join "\n" (s :: ls) = s ++ onLines ls := by
  induction ls generalizing s with
  | nil => exact (List.append_nil s).symm
  | cons t ls ih =>
    rw [join_cons_cons, ih, onLines_cons]
    rfl

/-! ## Whole lines -/

/-- The text is made of whole lines. -/
def Complete (t : Text) : Prop := ∀ c ∈ t.getLast?, c = '\n'

/-- A line ends in front of the text. -/
def LineEnd (t : Text) : Prop := ∀ c ∈ t.head?, c = '\n'

/-- Between the texts in front of it and behind it, `line` is a line of its own. -/
structure OwnLine (front line behind : Text) : Prop where
  complete : Complete front
  unbroken : '\n' ∉ line
  ended : LineEnd behind

instance (t : Text) : Decidable (Complete t) :=
  decidable_of_iff (t.getLast?.all (· == '\n') = true) (by simp [Complete, Option.all_eq_true])

instance (t : Text) : Decidable (LineEnd t) :=
  decidable_of_iff (t.head?.all (· == '\n') = true) (by simp [LineEnd, Option.all_eq_true])

instance (front line behind : Text) : Decidable (OwnLine front line behind) :=
  decidable_of_iff (Complete front ∧ '\n' ∉ line ∧ LineEnd behind)
    ⟨fun ⟨h, h', h''⟩ => ⟨h, h', h''⟩, fun h => ⟨h.complete, h.unbroken, h.ended⟩⟩

section
variable {s t : Text}

theorem Complete.nil : Complete [] := by simp [Complete]

theorem Complete.behind (h : Complete (s ++ t)) : Complete t := by
  intro c hc
  exact h c (by rw [List.getLast?_append]; simp [Option.mem_def.1 hc])

theorem Complete.append (hs : Complete s) (ht : Complete t) : Complete (s ++ t) := by
  intro c hc
  rw [List.getLast?_append] at hc
  cases hlast : t.getLast? with
  | none => exact hs c (by simpa [hlast] using hc)
  | some d => exact ht c (by simpa [hlast] using hc)

theorem Complete.break (t : Text) : Complete (t ++ ['\n']) := by simp [Complete]

/-- A text of whole lines has nothing behind its last line break. -/
theorem Complete.eq_nil (h : Complete (s ++ t)) (ht : '\n' ∉ t) : t = [] := by
  rcases List.eq_nil_or_concat t with hnil | ⟨u, c, rfl⟩
  · exact hnil
  · have hc : c = '\n' := h c (by simp)
    exact absurd (by simp [hc]) ht

theorem LineEnd.nil : LineEnd [] := by simp [LineEnd]

theorem LineEnd.break (t : Text) : LineEnd ('\n' :: t) := by simp [LineEnd]

theorem LineEnd.eq_nil_or_cons (h : LineEnd t) : t = [] ∨ ∃ u, t = '\n' :: u := by
  cases t with
  | nil => exact .inl rfl
  | cons c u =>
    obtain rfl : c = '\n' := h c rfl
    exact .inr ⟨u, rfl⟩

/-- The whole lines of a text and what stands behind the last of them. -/
theorem exists_complete (t : Text) : ∃ s u, t = s ++ u ∧ Complete s ∧ '\n' ∉ u := by
  induction t with
  | nil => exact ⟨[], [], rfl, .nil, by simp⟩
  | cons c t ih =>
    obtain ⟨s, u, rfl, hs, hu⟩ := ih
    by_cases hbreak : s = [] ∧ c ≠ '\n'
    · obtain ⟨rfl, hc⟩ := hbreak
      exact ⟨[], c :: u, rfl, .nil, by simp [hu, Ne.symm hc]⟩
    · refine ⟨c :: s, u, rfl, ?_, hu⟩
      cases hlast : s with
      | nil =>
        have hc : c = '\n' := by simpa [hlast] using hbreak
        simp [Complete, hc]
      | cons d s' =>
        intro e he
        rw [hlast] at hs
        exact hs e (by simpa [List.getLast?_cons_cons] using he)

end

end Text

end DocPages
