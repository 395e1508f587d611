import DocPages.Proofs.Page.Quiet

/-!
# Reserved sources

Where the readers of media addresses accept a text, and how many sources with a reserved path there are in a tag. The
reader of tags takes the last of them; it accepts a tag exactly if there is one.
-/

namespace DocPages.Media

variable {root s t u : Text} {r : Reference}

/-! ## Where a reader of addresses accepts -/

theorem notMem_quote {c q : Char} (hc : isQuote c = false) (hq : isQuote q = true) : c ∉ [q] := fun hmem => by
  rw [List.mem_singleton.1 hmem, hq] at hc
  cases hc

/-- The value of a source begins with the root and goes on. -/
theorem isSome_source?_iff : (source? root t).isSome = true ↔ ∃ q d u, isQuote q = true ∧ isQuote d = false ∧
    (∃ c ∈ u, isQuote c = true) ∧ t = "src=" ++ q :: (root ++ d :: u) := by
  constructor
  · intro h
    obtain ⟨⟨r, rest⟩, hread⟩ := Option.isSome_iff_exists.1 h
    obtain ⟨q, d, u, q', hq, hd, hq', hrest, ht, -⟩ := source?_parts hread
    have hmem : q' ∈ u := (List.dropWhile_suffix _).subset (hrest ▸ List.mem_cons_self)
    exact ⟨q, d, u, hq, hd, ⟨q', hmem, hq'⟩, ht⟩
  · rintro ⟨q, d, u, hq, hd, ⟨c, hc, hquote⟩, rfl⟩
    have hne : u.dropWhile (!isQuote ·) ≠ [] := fun hnil => by
      simpa [hquote] using List.dropWhile_eq_nil_iff.1 hnil c hc
    obtain ⟨q', rest, hrest⟩ := List.exists_cons_of_ne_nil hne
    have hpath : path? root (!isQuote ·) (root ++ d :: u) = some (root ++ d :: u.takeWhile (!isQuote ·), q' :: rest) :=
      path?_eq_some_iff.2 ⟨d, u, by simp [hd], rfl, rfl, hrest.symm⟩
    have hafter : Text.after? "src=" ("src=" ++ q :: (root ++ d :: u)) = some (q :: (root ++ d :: u)) :=
      Text.after?_append _ _
    rw [source?, hafter]
    simp [hq, hpath]

/-- The address of an image begins with the root and goes on. -/
theorem isSome_image?_iff : (image? root t).isSome = true ↔ ∃ label d u, ']' ∉ label ∧ isPathChar d = true ∧ ')' ∈ u ∧
    t = "![" ++ (label ++ ']' :: '(' :: (root ++ d :: u)) := by
  constructor
  · intro h
    obtain ⟨⟨r, rest⟩, hread⟩ := Option.isSome_iff_exists.1 h
    obtain ⟨label, d, u, title, hlabel, hd, hrest, ht, -⟩ := image?_parts hread
    have hclose : ')' ∈ u := (List.dropWhile_suffix _).subset (hrest ▸ List.mem_append_right _ List.mem_cons_self)
    exact ⟨label, d, u, hlabel, hd, hclose, ht⟩
  · rintro ⟨label, d, u, hlabel, hd, hclose, rfl⟩
    have hafter (v : Text) : Text.after? "![" ("![" ++ v) = some v := Text.after?_append _ _
    have hcut (v : Text) : Text.cut? "]" (label ++ ']' :: v) = some (label, v) :=
      Text.cut?_append (@Text.clear_of_notMem [] _ _ hlabel _)
    have hpath : path? root isPathChar (root ++ d :: u) =
        some (root ++ d :: u.takeWhile isPathChar, u.dropWhile isPathChar) :=
      path?_eq_some_iff.2 ⟨d, u, hd, rfl, rfl, rfl⟩
    have hmem : ')' ∈ u.dropWhile isPathChar := by
      rw [← List.takeWhile_append_dropWhile (p := isPathChar) (l := u)] at hclose
      exact (List.mem_append.1 hclose).resolve_left fun hpath => absurd (List.mem_takeWhile_imp hpath) (by decide)
    obtain ⟨p, hp⟩ : ∃ p, Text.cut? ")" (u.dropWhile isPathChar) = some p := by
      refine Option.ne_none_iff_exists'.1 fun hnone => Text.cut?_eq_none_iff.1 hnone ?_
      obtain ⟨a, b, hab⟩ := List.append_of_mem hmem
      exact ⟨a, b, by simp [hab]⟩
    rw [image?, hafter]
    simp only [Option.bind_eq_bind, Option.bind_some, hcut, hpath, hp]
    rfl

theorem lastSource?_quoted {rest : Text} (h : lastSource? root t = some (r, rest)) : ∃ inside q v q', '>' ∉ inside ∧
    isQuote q = true ∧ isQuote q' = true ∧ r = ⟨inside ++ ("src=" ++ [q]), root ++ v, [q']⟩ := by
  obtain ⟨inside, s, r', hinside, -, hsource, rfl⟩ := lastSource?_parts h
  obtain ⟨q, d, v, q', hq, -, hq', -, -, rfl⟩ := source?_parts hsource
  exact ⟨inside, q, _, q', hinside, hq, hq', rfl⟩

theorem imageTag?_quoted {rest : Text} (h : imageTag? root t = some (r, rest)) : ∃ c inside q v q', isBlank c = true ∧
    '>' ∉ inside ∧ isQuote q = true ∧ isQuote q' = true ∧
    r = ⟨"<img" ++ c :: (inside ++ ("src=" ++ [q])), root ++ v, [q']⟩ := by
  obtain ⟨c, u, r', hc, -, hlast, rfl⟩ := imageTag?_parts h
  obtain ⟨inside, q, v, q', hinside, hq, hq', rfl⟩ := lastSource?_quoted hlast
  exact ⟨c, inside, q, v, q', hc, hinside, hq, hq', rfl⟩

/-! ## The sources of a tag -/

/-- How many sources with a path below the root begin before the tag ends. -/
def sources (root : Text) : Text → Nat
  | [] => 0
  | c :: t => (if (source? root (c :: t)).isSome then 1 else 0) + if c = '>' then 0 else sources root t

/-- How many there are in the image tag that a text begins with. -/
def tagSources (root t : Text) : Nat :=
  match Text.after? "<img" t with
  | some (c :: u) => if isBlank c then sources root u else 0
  | _ => 0

theorem isSome_lastSource?_iff : (lastSource? root t).isSome = true ↔ 0 < sources root t := by
  induction t with
  | nil => simp [lastSource?, sources]
  | cons c t ih =>
    rw [lastSource?, sources, Option.isSome_or, Bool.or_eq_true]
    by_cases hc : c = '>'
    · cases (source? root (c :: t)).isSome <;> simp [hc]
    · rw [if_neg hc, if_neg hc, Option.isSome_map, ih]
      by_cases hread : (source? root (c :: t)).isSome = true
      · rw [if_pos hread]
        exact iff_of_true (.inr hread) (Nat.add_pos_left Nat.one_pos _)
      · rw [if_neg hread, Nat.zero_add, or_iff_left hread]

theorem tagSources_tag {c : Char} (hc : isBlank c = true) (u : Text) :
    tagSources root ("<img" ++ c :: u) = sources root u := by
  rw [tagSources, Text.after?_append]
  simp [hc]

theorem tagSources_pos_iff : 0 < tagSources root t ↔
    ∃ c u, isBlank c = true ∧ 0 < sources root u ∧ t = "<img" ++ c :: u := by
  constructor
  · intro h
    unfold tagSources at h
    split at h
    · next c u hafter =>
      split at h
      · next hc => exact ⟨c, u, hc, h, Text.eq_append_of_after? hafter⟩
      · cases h
    · cases h
  · rintro ⟨c, u, hc, hpos, rfl⟩
    rwa [tagSources_tag hc]

theorem isSome_imageTag?_iff : (imageTag? root t).isSome = true ↔ 0 < tagSources root t := by
  unfold imageTag? tagSources
  cases hafter : Text.after? "<img" t with
  | none => simp
  | some u =>
    cases u with
    | nil => simp
    | cons c u =>
      cases hc : isBlank c with
      | false => simp [hc]
      | true =>
        have hlast := @isSome_lastSource?_iff root u
        cases hread : lastSource? root u <;> simpa [hread, hc] using hlast

theorem sources_pos (h : (source? root t).isSome = true) : 0 < sources root t := by
  cases t with
  | nil => cases h
  | cons c t =>
    rw [sources, if_pos h]
    exact Nat.add_pos_left Nat.one_pos _

theorem sources_le_append (h : '>' ∉ s) (t : Text) : sources root t ≤ sources root (s ++ t) := by
  induction s with
  | nil => exact Nat.le_refl _
  | cons c s ih =>
    rw [List.mem_cons, not_or] at h
    rw [List.cons_append, sources, if_neg (Ne.symm h.1)]
    exact (ih h.2).trans (Nat.le_add_left _ _)

theorem imageTag?_eq_none_iff {root : Text} : imageTag? root t = none ↔ tagSources root t = 0 := by
  rw [← Option.isNone_iff_eq_none, ← Option.not_isSome, Bool.not_eq_true', ← Bool.not_eq_true, isSome_imageTag?_iff]
  omega

/-- A tag that begins inside another one has no more sources. -/
theorem tagSources_inside {root inside a b : Text} {c : Char} (hc : isBlank c = true) (hinside : '>' ∉ inside)
    (h : "<img" ++ c :: inside = a ++ b) (w : Text) :
    tagSources root (b ++ w) ≤ tagSources root ("<img" ++ c :: inside ++ w) := by
  by_contra hlt
  obtain ⟨c', y, hc', -, hb⟩ := tagSources_pos_iff.1 ((Nat.zero_le _).trans_lt (not_le.1 hlt))
  have hblank {d : Char} (hd : isBlank d = true) : '>' ≠ d := fun he => absurd (he ▸ hd) (by decide)
  have hfront : '>' ∉ ("<img" : Text) ++ c :: inside :=
    List.not_mem_append (by decide) (by simp [hblank hc, hinside])
  have htext : (a ++ ("<img" ++ [c'])) ++ y = ("<img" ++ [c]) ++ (inside ++ w) := by
    calc (a ++ ("<img" ++ [c'])) ++ y = a ++ (b ++ w) := by simp [hb]
      _ = ("<img" ++ [c]) ++ (inside ++ w) := by rw [← List.append_assoc, ← h]; simp
  obtain ⟨m, hm⟩ : ("<img" : Text) ++ [c] <+: a ++ ("<img" ++ [c']) :=
    List.prefix_of_prefix_length_le ⟨inside ++ w, htext.symm⟩ ⟨y, rfl⟩ (by simp)
  have hy : inside ++ w = m ++ y := by
    rw [← hm, List.append_assoc] at htext
    exact (List.append_cancel_left htext).symm
  have hm : '>' ∉ m := by
    refine fun hmem => List.not_mem_append (fun ha => hfront (h ▸ List.mem_append_left b ha)) ?_
      (hm ▸ List.mem_append_right _ hmem)
    exact List.not_mem_append (by decide) (by simp [hblank hc'])
  rw [List.append_assoc, List.cons_append, tagSources_tag hc, hb, tagSources_tag hc', hy] at hlt
  exact hlt (sources_le_append hm y)

/-- A tag that begins in front of the address of another one has no more sources than that. -/
theorem tagSources_before {a b rest : Text} (h : imageTag? root t = some (r, rest)) (hab : r.before = a ++ b) (w : Text) :
    tagSources root (b ++ w) ≤ tagSources root (r.before ++ w) := by
  obtain ⟨c, inside, q, v, q', hc, hinside, hq, -, rfl⟩ := imageTag?_quoted h
  have hname : '>' ∉ ("src=" : Text) ++ [q] := List.not_mem_append (by decide) (notMem_quote (by decide) hq)
  exact tagSources_inside hc (List.not_mem_append hinside hname) hab w

end DocPages.Media
