import DocPages.Proofs.Page.Sources

/-!
# Texts with an origin put in

What the passes for media addresses do to a text: an origin is put in front of paths, behind a quote or a parenthesis.
The origin ends neither a tag nor an image and begins none, so what is read of the longer text is read of the other one
too, and behind parentheses it changes nothing for tags.
-/

namespace DocPages.Media

variable {s t u : Text} {r : Reference}

/-- What addresses begin with: it ends neither a tag nor an image, and no image begins in it. -/
structure Origin where
  text : Text
  secure : ("https://" : Text) <+: text
  plain : ∀ c ∈ text, c ∉ ['"', '\'', '(', ')', '<', '>'] ∧ isBlank c = false
  unmarked : ¬ ("![" : Text) <:+: text

/-- The characters behind which addresses begin. -/
def delimiters : List Char := ['"', '\'', '(']

/-- All characters of the class are such. -/
def Delimits (p : Char → Bool) : Prop := ∀ c, p c = true → c ∈ delimiters

/-- What paths begin with that are replaced. -/
structure ReservedRoot where
  path : Text
  slash : path.head? = some '/'
  plain : ∀ c ∈ path, c ∉ delimiters

/-- The other text has the origin in some places, between a character of the class and a slash. -/
inductive Grown (p : Char → Bool) (o : Origin) : Text → Text → Prop where
  | nil : Grown p o [] []
  | cons (c : Char) {t u : Text} (h : Grown p o t u) : Grown p o (c :: t) (c :: u)
  | origin {c : Char} {t u : Text} (hc : p c = true) (h : Grown p o ('/' :: t) ('/' :: u)) :
    Grown p o (c :: '/' :: t) (c :: (o.text ++ '/' :: u))

namespace Origin

variable (o : Origin)

theorem notMem {c : Char} (hc : c ∈ ['"', '\'', '(', ')', '<', '>']) : c ∉ o.text := fun h => (o.plain c h).1 hc

theorem not_isQuote {c : Char} (h : c ∈ o.text) : isQuote c = false := by
  have hc := (o.plain c h).1
  simp only [List.mem_cons, not_or] at hc
  simp [isQuote, hc.1, hc.2.1]

theorem append_ne (t u : Text) : o.text ++ t ≠ '/' :: u := by
  obtain ⟨more, hmore⟩ := o.secure
  rw [← hmore]
  exact fun h => absurd (List.cons.inj h).1 (by decide)

theorem ne_nil : o.text ≠ [] := fun h => o.append_ne ['/'] [] (by rw [h]; rfl)

end Origin

namespace Grown

variable {p : Char → Bool} {o : Origin} {c : Char} {x y : Text}

theorem refl (t : Text) : Grown p o t t := by
  induction t with
  | nil => exact .nil
  | cons c t ih => exact .cons c ih

theorem append (h : Grown p o s x) (h' : Grown p o t y) : Grown p o (s ++ t) (x ++ y) := by
  induction h with
  | nil => exact h'
  | cons c _ ih => exact .cons c ih
  | origin hc _ ih =>
    simpa using origin hc ih

theorem mem (h : Grown p o t u) (hc : c ∈ u) : c ∈ t ∨ c ∈ o.text := by
  induction h with
  | nil => cases hc
  | cons d _ ih =>
    rcases List.mem_cons.1 hc with rfl | hc
    · exact .inl List.mem_cons_self
    · exact (ih hc).imp_left (List.mem_cons_of_mem d)
  | @origin d t u _ _ ih =>
    rcases List.mem_cons.1 hc with rfl | hc
    · exact .inl List.mem_cons_self
    · rcases List.mem_append.1 hc with hc | hc
      · exact .inr hc
      · exact (ih hc).imp_left (List.mem_cons_of_mem d)

/-- A character of the longer text that is none of the origin's stands in the other text. -/
theorem cons_inv (h : Grown p o t (c :: u)) : ∃ t', t = c :: t' ∧ (Grown p o t' u ∨
    p c = true ∧ ∃ t'' u', t' = '/' :: t'' ∧ u = o.text ++ '/' :: u' ∧ Grown p o t' ('/' :: u')) := by
  cases h with
  | cons c h => exact ⟨_, rfl, .inl h⟩
  | origin hc h => exact ⟨_, rfl, .inr ⟨hc, _, _, rfl, rfl, h⟩⟩

theorem kept (h : Grown p o t (c :: u)) (hc : p c = false) : ∃ t', t = c :: t' ∧ Grown p o t' u := by
  obtain ⟨t', rfl, h | ⟨hp, -⟩⟩ := h.cons_inv
  · exact ⟨t', rfl, h⟩
  · simp [hc] at hp

/-- Where a slash follows, the origin has not been put in. -/
theorem kept_slash (h : Grown p o t (c :: '/' :: u)) : ∃ t', t = c :: t' ∧ Grown p o t' ('/' :: u) := by
  obtain ⟨t', rfl, h | ⟨-, t'', u', -, hu, -⟩⟩ := h.cons_inv
  · exact ⟨t', rfl, h⟩
  · exact absurd hu.symm (o.append_ne _ _)

theorem kept_append (h : Grown p o t (x ++ u)) (hx : ∀ c ∈ x, p c = false) : ∃ t', t = x ++ t' ∧ Grown p o t' u := by
  induction x generalizing t with
  | nil => exact ⟨t, rfl, h⟩
  | cons c x ih =>
    obtain ⟨t', rfl, hrest⟩ := h.kept (hx c List.mem_cons_self)
    obtain ⟨t'', rfl, hend⟩ := ih hrest fun d hd => hx d (List.mem_cons_of_mem c hd)
    exact ⟨t'', rfl, hend⟩

/-- What follows a character has grown, be it that the origin has been put in right behind it. -/
theorem mem_behind {d : Char} (h : Grown p o (c :: t) (c :: u)) (hd : d ∈ u) : d ∈ t ∨ d ∈ o.text := by
  cases h with
  | cons _ hrest => exact hrest.mem hd
  | origin _ hrest => exact (List.mem_append.1 hd).elim .inr hrest.mem

end Grown

/-! ## What is read of a text that has grown -/

section
variable {p : Char → Bool} {o : Origin} {root : ReservedRoot}

theorem delimits_paren : Delimits (· == '(') := fun c h => by simp [delimiters, eq_of_beq h]

theorem delimits_quote : Delimits isQuote := fun c h => by
  have hc : c = '"' ∨ c = '\'' := by simpa [isQuote] using h
  rcases hc with rfl | rfl <;> decide

theorem not_class (hp : Delimits p) (ht : ∀ c ∈ t, c ∉ delimiters) :
    ∀ c ∈ t, p c = false := fun c hc => by
  cases hclass : p c with
  | false => rfl
  | true => exact absurd (hp c hclass) (ht c hc)

theorem ReservedRoot.exists_cons (root : ReservedRoot) (t : Text) : ∃ u, root.path ++ t = '/' :: u := by
  have hslash := root.slash
  cases hpath : root.path with
  | nil => simp [hpath] at hslash
  | cons c u =>
    obtain rfl : c = '/' := by simpa [hpath] using hslash
    exact ⟨u ++ t, rfl⟩

/-- No source begins where a slash follows before a quote. -/
theorem source?_slash {root m : Text} (hm : ∀ c ∈ m, isQuote c = false) (u : Text) :
    (source? root (m ++ '/' :: u)).isSome = false := by
  refine Bool.eq_false_iff.2 fun hread => ?_
  obtain ⟨q, d, v, hq, -, -, ht⟩ := isSome_source?_iff.1 hread
  have hslash : '/' ∉ ("src=" : Text) ++ [q] := List.not_mem_append (by decide) (notMem_quote (by decide) hq)
  have hname : ("src=" ++ [q]) ++ (root ++ d :: v) = m ++ '/' :: u := by rw [ht, List.append_assoc]; rfl
  obtain ⟨w, rfl, -⟩ := exists_append_of_append_cons hslash hname
  simp [hm q (by simp)] at hq

theorem sources_origin {root : Text} (u : Text) : sources root (o.text ++ '/' :: u) = sources root ('/' :: u) := by
  have hplain (m : Text) (hm : ∀ c ∈ m, c ∈ o.text) : sources root (m ++ '/' :: u) = sources root ('/' :: u) := by
    induction m with
    | nil => rfl
    | cons c m ih =>
      have hread : (source? root (c :: (m ++ '/' :: u))).isSome = false :=
        source?_slash (m := c :: m) (fun d hd => o.not_isQuote (hm d hd)) u
      have hne : c ≠ '>' := fun he => o.notMem (c := '>') (by decide) (he ▸ hm c List.mem_cons_self)
      rw [List.cons_append, sources, hread, if_neg hne, ih fun d hd => hm d (List.mem_cons_of_mem c hd)]
      simp
  exact hplain o.text fun _ hc => hc

namespace Grown

/-- A path below the root stands in both texts, if it is in the longer one. -/
theorem path (hp : Delimits p) {c d : Char} (h : Grown p o t (c :: (root.path ++ d :: u))) :
    ∃ t', t = c :: (root.path ++ d :: t') ∧ Grown p o (d :: t') (d :: u) := by
  obtain ⟨v, hv⟩ := root.exists_cons (d :: u)
  rw [hv] at h
  obtain ⟨t', rfl, hrest⟩ := h.kept_slash
  rw [← hv] at hrest
  obtain ⟨t'', rfl, hend⟩ := hrest.kept_append (not_class hp root.plain)
  obtain ⟨t', rfl, -⟩ := hend.cons_inv
  exact ⟨t', rfl, hend⟩

theorem source (hp : Delimits p) (h : Grown p o t u)
    (hread : (source? root.path u).isSome = true) : (source? root.path t).isSome = true := by
  obtain ⟨q, d, v, hq, hd, ⟨c, hc, hquote⟩, rfl⟩ := isSome_source?_iff.1 hread
  have hname : ∀ c ∈ ("src=" : Text), p c = false := not_class hp (by decide)
  obtain ⟨t', rfl, hrest⟩ := h.kept_append hname
  obtain ⟨t', rfl, hend⟩ := hrest.path hp
  refine isSome_source?_iff.2 ⟨q, d, t', hq, hd, ⟨c, (hend.mem_behind hc).resolve_right fun horigin => ?_, hquote⟩, rfl⟩
  simp [o.not_isQuote horigin] at hquote

theorem sources_le (hp : Delimits p) (h : Grown p o t u) :
    sources root.path u ≤ sources root.path t := by
  have hfront {t u : Text} (h : Grown p o t u) : (if (source? root.path u).isSome then 1 else 0) ≤
      if (source? root.path t).isSome then 1 else 0 := by
    by_cases hu : (source? root.path u).isSome = true
    · simp [hu, h.source hp hu]
    · simp [hu]
  induction h with
  | nil => exact Nat.le_refl _
  | @cons c t u h ih =>
    refine Nat.add_le_add (hfront (h.cons c)) ?_
    split
    · exact Nat.le_refl _
    · exact ih
  | @origin c t u hc h ih =>
    have hne : c ≠ '>' := fun he => absurd (hp c hc) (by rw [he]; decide)
    refine Nat.add_le_add (hfront (origin hc h)) ?_
    rwa [if_neg hne, if_neg hne, sources_origin]

/-- The label of an image ends in both texts at the same place, as no bracket of the origin is followed by another. -/
theorem label {label : Text} (hp : Delimits p) (hlabel : ']' ∉ label)
    (h : Grown p o t (label ++ ']' :: '(' :: u)) :
    ∃ label' t', ']' ∉ label' ∧ t = label' ++ ']' :: t' ∧ Grown p o t' ('(' :: u) := by
  generalize hv : label ++ ']' :: '(' :: u = v at h
  induction h generalizing label with
  | nil => simp at hv
  | @cons c t v h ih =>
    cases label with
    | nil =>
      obtain ⟨rfl, rfl⟩ := List.cons.inj hv
      exact ⟨[], t, by simp, rfl, h⟩
    | cons d label =>
      obtain ⟨rfl, hrest⟩ := List.cons.inj hv
      rw [List.mem_cons, not_or] at hlabel
      obtain ⟨label', t', hlabel', rfl, hrest⟩ := ih hlabel.2 hrest
      exact ⟨d :: label', t', by simp [hlabel.1, hlabel'], rfl, hrest⟩
  | @origin c t v hc h ih =>
    cases label with
    | nil =>
      obtain ⟨rfl, -⟩ := List.cons.inj hv
      exact absurd (hp _ hc) (by decide)
    | cons d label =>
      obtain ⟨rfl, hafter⟩ := List.cons.inj hv
      rw [List.mem_cons, not_or] at hlabel
      rcases List.append_eq_append_iff.1 hafter with ⟨m, horigin, hm⟩ | ⟨m, rfl, hm⟩
      · have hparen : '(' ∉ m := fun hmem => o.notMem (by decide) (horigin ▸ List.mem_append_right label hmem)
        cases m with
        | nil => cases hm
        | cons e m =>
          cases m with
          | nil => cases hm
          | cons e' m =>
            obtain ⟨rfl, -⟩ := List.cons.inj (List.cons.inj hm).2
            exact absurd (by simp) hparen
      · obtain ⟨label', t', hlabel', ht, hrest⟩ := ih (fun hmem => hlabel.2 (List.mem_append_right _ hmem)) hm.symm
        exact ⟨d :: label', t', by simp [hlabel.1, hlabel'], by rw [ht]; rfl, hrest⟩

theorem image (hp : Delimits p) (h : Grown p o t u)
    (hread : (image? root.path u).isSome = true) : (image? root.path t).isSome = true := by
  obtain ⟨l, d, v, hlabel, hd, hclose, rfl⟩ := isSome_image?_iff.1 hread
  obtain ⟨t', rfl, hrest⟩ := h.kept_append (not_class hp (by decide))
  obtain ⟨l', t', hlabel', rfl, hpath⟩ := hrest.label hp hlabel
  obtain ⟨t', rfl, hend⟩ := hpath.path hp
  exact isSome_image?_iff.2 ⟨l', d, t', hlabel', hd, (hend.mem_behind hclose).resolve_right (o.notMem (by decide)), rfl⟩

theorem image_none (hp : Delimits p) (h : Grown p o t u) (ht : image? root.path t = none) :
    image? root.path u = none := by
  cases hread : image? root.path u with
  | none => rfl
  | some _ =>
    have haccepts := h.image hp (by rw [hread]; rfl)
    rw [ht] at haccepts
    cases haccepts

theorem tagSources_le (hp : Delimits p) (h : Grown p o t u) :
    tagSources root.path u ≤ tagSources root.path t := by
  by_contra hlt
  obtain ⟨c, v, hc, -, rfl⟩ := tagSources_pos_iff.1 (Nat.zero_le _ |>.trans_lt (not_le.1 hlt))
  obtain ⟨t', rfl, hrest⟩ := h.kept_append (not_class hp (by decide))
  have hclass : p c = false := by
    refine Bool.eq_false_iff.2 fun hpc => ?_
    have hquotes : ∀ c ∈ delimiters, isBlank c = false := by decide
    simp [hquotes c (hp c hpc)] at hc
  obtain ⟨t', rfl, hinside⟩ := hrest.kept hclass
  rw [tagSources_tag hc, tagSources_tag hc] at hlt
  exact hlt (hinside.sources_le hp)

/-! ### Ends of texts -/

theorem subset (h : Grown p o t u) {c : Char} (hc : c ∈ t) : c ∈ u := by
  induction h with
  | nil => exact hc
  | cons d _ ih =>
    rcases List.mem_cons.1 hc with rfl | hc
    · exact List.mem_cons_self
    · exact List.mem_cons_of_mem d (ih hc)
  | @origin d t u _ _ ih =>
    rcases List.mem_cons.1 hc with rfl | hc
    · exact List.mem_cons_self
    · exact List.mem_cons_of_mem d (List.mem_append_right _ (ih hc))

theorem subset_behind {c : Char} (h : Grown p o (c :: t) u) : ∃ u', u = c :: u' ∧ ∀ d ∈ t, d ∈ u' := by
  cases h with
  | cons _ h => exact ⟨_, rfl, fun _ hd => h.subset hd⟩
  | origin _ h => exact ⟨_, rfl, fun _ hd => List.mem_append_right _ (h.subset hd)⟩

/-- To an end of the first text belongs one of the second. -/
theorem suffix (h : Grown p o t u) (hs : s <:+ t) : ∃ v, v <:+ u ∧ Grown p o s v := by
  induction h with
  | nil => exact ⟨[], List.nil_suffix, by rw [List.suffix_nil.1 hs]; exact .nil⟩
  | @cons c t u h ih =>
    rcases List.suffix_cons_iff.1 hs with rfl | hs
    · exact ⟨_, List.suffix_refl _, h.cons c⟩
    · obtain ⟨v, hv, hgrown⟩ := ih hs
      exact ⟨v, hv.trans (List.suffix_cons c u), hgrown⟩
  | @origin c t u hc h ih =>
    rcases List.suffix_cons_iff.1 hs with rfl | hs
    · exact ⟨_, List.suffix_refl _, .origin hc h⟩
    · obtain ⟨v, hv, hgrown⟩ := ih hs
      exact ⟨v, hv.trans ((List.suffix_append _ _).trans (List.suffix_cons c _)), hgrown⟩

/-- To an end of the second text that does not begin within an origin belongs one of the first. -/
theorem of_suffix (h : Grown p o t u) {v : Text} (hv : v <:+ u) :
    (∃ s, s <:+ t ∧ Grown p o s v) ∨ ∃ m w, m ≠ [] ∧ m <:+ o.text ∧ v = m ++ '/' :: w := by
  induction h with
  | nil => exact .inl ⟨[], List.nil_suffix, by rw [List.suffix_nil.1 hv]; exact .nil⟩
  | @cons c t u h ih =>
    rcases List.suffix_cons_iff.1 hv with rfl | hv
    · exact .inl ⟨_, List.suffix_refl _, h.cons c⟩
    · rcases ih hv with ⟨s, hs, hgrown⟩ | hwithin
      · exact .inl ⟨s, hs.trans (List.suffix_cons c t), hgrown⟩
      · exact .inr hwithin
  | @origin c t u hc h ih =>
    rcases List.suffix_cons_iff.1 hv with rfl | ⟨a, ha⟩
    · exact .inl ⟨_, List.suffix_refl _, .origin hc h⟩
    · rcases List.append_eq_append_iff.1 ha with ⟨m, hm, rfl⟩ | ⟨m, -, hm⟩
      · cases m with
        | nil => exact .inl ⟨_, List.suffix_cons c _, h⟩
        | cons e m => exact .inr ⟨e :: m, u, by simp, ⟨a, hm.symm⟩, rfl⟩
      · rcases ih ⟨m, hm.symm⟩ with ⟨s, hs, hgrown⟩ | hwithin
        · exact .inl ⟨s, hs.trans (List.suffix_cons c _), hgrown⟩
        · exact .inr hwithin

/-- No image begins where none has begun. -/
theorem refused_image (hp : Delimits p) (h : Grown p o t u)
    (ht : Refused (image? root.path) t []) : Refused (image? root.path) u [] := by
  intro a b hab hb
  rw [List.append_nil]
  rcases h.of_suffix ⟨a, hab.symm⟩ with ⟨s, ⟨front, hs⟩, hgrown⟩ | ⟨m, w, -, hm, rfl⟩
  · refine hgrown.image_none hp ?_
    have hne : s ≠ [] := by
      rintro rfl
      cases hgrown
      exact hb rfl
    have hread := ht front s hs.symm hne
    rwa [List.append_nil] at hread
  · refine Markup.begins_image root.path _ fun hbegins => o.unmarked ?_
    obtain ⟨v, hv⟩ := hbegins
    have hmark : '/' ∉ ("![" : Text) := by decide
    obtain ⟨m', rfl, -⟩ := exists_append_of_append_cons hmark hv
    exact (List.prefix_append _ m').isInfix.trans hm.isInfix

/-! ### The origin behind parentheses -/

theorem kept_left {c : Char} (h : Grown p o (c :: t) u) (hc : p c = false) : ∃ u', u = c :: u' ∧ Grown p o t u' := by
  cases h with
  | cons _ h => exact ⟨_, rfl, h⟩
  | origin hpc => simp [hc] at hpc

theorem kept_append_left {x : Text} (h : Grown p o (x ++ t) u) (hx : ∀ c ∈ x, p c = false) :
    ∃ u', u = x ++ u' ∧ Grown p o t u' := by
  induction x generalizing u with
  | nil => exact ⟨u, rfl, h⟩
  | cons c x ih =>
    obtain ⟨v, rfl, hrest⟩ := h.kept_left (hx c List.mem_cons_self)
    obtain ⟨v, rfl, hend⟩ := ih hrest fun d hd => hx d (List.mem_cons_of_mem c hd)
    exact ⟨v, rfl, hend⟩

/-- The sources of a tag stay where the origin is put behind parentheses. -/
theorem source_left (h : Grown (· == '(') o t u) (hread : (source? root.path t).isSome = true) :
    (source? root.path u).isSome = true := by
  obtain ⟨q, d, v, hq, hd, ⟨c, hc, hquote⟩, rfl⟩ := isSome_source?_iff.1 hread
  have hplain : ∀ c ∈ "src=" ++ (q :: root.path), (c == '(') = false := by
    have hparen : '(' ≠ q := fun he => absurd (he ▸ hq) (by decide)
    have hroot : '(' ∉ root.path := fun hmem => root.plain _ hmem (by decide)
    have hmem : '(' ∉ ("src=" : Text) ++ (q :: root.path) := List.not_mem_append (by decide) (by simp [hparen, hroot])
    exact fun c hc => beq_eq_false_iff_ne.2 (ne_of_mem_of_not_mem hc hmem)
  have htext : "src=" ++ q :: (root.path ++ d :: v) = ("src=" ++ (q :: root.path)) ++ d :: v := by simp
  rw [htext] at h
  obtain ⟨u', rfl, hrest⟩ := h.kept_append_left hplain
  obtain ⟨v', rfl, hmem⟩ := hrest.subset_behind
  exact isSome_source?_iff.2 ⟨q, d, v', hq, hd, ⟨c, hmem c hc, hquote⟩, by simp⟩

theorem sources_eq (h : Grown (· == '(') o t u) : sources root.path u = sources root.path t := by
  have hfront {t u : Text} (h : Grown (· == '(') o t u) : (source? root.path u).isSome = (source? root.path t).isSome :=
    Bool.eq_iff_iff.2 ⟨h.source delimits_paren, h.source_left⟩
  induction h with
  | nil => rfl
  | @cons c t u h ih => rw [sources, sources, hfront (h.cons c), ih]
  | @origin c t u hc h ih => rw [sources, sources, hfront (.origin hc h), sources_origin, ih]

theorem tagSources_eq (h : Grown (· == '(') o t u) : tagSources root.path u = tagSources root.path t := by
  refine Nat.le_antisymm (h.tagSources_le delimits_paren) ?_
  by_contra hlt
  obtain ⟨c, v, hc, -, rfl⟩ := tagSources_pos_iff.1 ((Nat.zero_le _).trans_lt (not_le.1 hlt))
  obtain ⟨u', rfl, hrest⟩ := h.kept_append_left (x := "<img") (by decide)
  have hparen : (c == '(') = false := by
    refine beq_eq_false_iff_ne.2 fun he => ?_
    exact absurd (he ▸ hc) (by decide)
  obtain ⟨u', rfl, hinside⟩ := hrest.kept_left hparen
  rw [tagSources_tag hc, tagSources_tag hc, hinside.sources_eq] at hlt
  exact hlt (Nat.le_refl _)

/-- Where no tag of the first text has two sources, none of the second has. -/
theorem tagSources_le_one_iff (h : Grown (· == '(') o t u) :
    (∀ v, v <:+ u → tagSources root.path v ≤ 1) ↔ ∀ s, s <:+ t → tagSources root.path s ≤ 1 := by
  constructor
  · intro hone s hs
    obtain ⟨v, hv, hgrown⟩ := h.suffix hs
    have hcount : tagSources root.path v = tagSources root.path s := hgrown.tagSources_eq
    exact hcount ▸ hone v hv
  · intro hone v hv
    rcases h.of_suffix hv with ⟨s, hs, hgrown⟩ | ⟨m, w, hm, horigin, rfl⟩
    · have hcount : tagSources root.path v = tagSources root.path s := hgrown.tagSources_eq
      exact hcount ▸ hone s hs
    · by_contra hmore
      obtain ⟨c, x, -, -, htag⟩ := tagSources_pos_iff.1 ((Nat.zero_le 1).trans_lt (not_le.1 hmore))
      obtain ⟨e, m, rfl⟩ := List.exists_cons_of_ne_nil hm
      obtain rfl : e = '<' := (List.cons.inj htag).1
      exact o.notMem (by decide) (horigin.subset List.mem_cons_self)

theorem mem_takeWhile (h : Grown (· == '(') o t u) {c : Char} (hc : c ∈ u.takeWhile (!isQuote ·)) :
    c ∈ t.takeWhile (!isQuote ·) ∨ c ∈ o.text := by
  induction h with
  | nil => exact .inl hc
  | @cons d t u _ ih =>
    cases hd : isQuote d with
    | true => simp [hd] at hc
    | false =>
      rw [List.takeWhile_cons_of_pos (by simp [hd])] at hc ⊢
      rcases List.mem_cons.1 hc with rfl | hc
      · exact .inl List.mem_cons_self
      · exact (ih hc).imp_left (List.mem_cons_of_mem d)
  | @origin d t u hd _ ih =>
    have hplain : ∀ e ∈ o.text, (!isQuote e) = true := fun e he => by simp [o.not_isQuote he]
    have hopen (v : Text) : (d :: v).takeWhile (!isQuote ·) = d :: v.takeWhile (!isQuote ·) :=
      List.takeWhile_cons_of_pos (by rw [eq_of_beq hd]; decide)
    rw [hopen, List.takeWhile_append_of_pos hplain] at hc
    rw [hopen]
    rcases List.mem_cons.1 hc with rfl | hc
    · exact .inl List.mem_cons_self
    · rcases List.mem_append.1 hc with hc | hc
      · exact .inr hc
      · exact (ih hc).imp_left (List.mem_cons_of_mem d)

/-- What is between the quotes of a source holds nothing new but the origin. -/
theorem mem_url {r' : Reference} {rest rest' : Text} (h : Grown (· == '(') o t u)
    (ht : source? root.path t = some (r, rest)) (hu : source? root.path u = some (r', rest')) {c : Char} (hc : c ∈ r'.url) :
    c ∈ r.url ∨ c ∈ o.text := by
  obtain ⟨q, d, v, q', -, -, -, -, htext, rfl⟩ := source?_parts ht
  obtain ⟨q₂, d₂, v₂, q₂', -, hd, -, -, rfl, rfl⟩ := source?_parts hu
  obtain ⟨t', rfl, hrest⟩ := h.kept_append (not_class delimits_paren (by decide))
  obtain ⟨t', rfl, hend⟩ := hrest.path delimits_paren
  obtain ⟨rfl, hpath⟩ := List.cons.inj (List.append_cancel_left htext)
  obtain ⟨rfl, rfl⟩ := List.cons.inj (List.append_cancel_left hpath)
  rcases List.mem_append.1 hc with hc | hc
  · exact .inl (List.mem_append_left _ hc)
  · have hopen (v : Text) : (d₂ :: v).takeWhile (!isQuote ·) = d₂ :: v.takeWhile (!isQuote ·) :=
      List.takeWhile_cons_of_pos (by simp [hd])
    rw [← hopen] at hc
    refine (hend.mem_takeWhile hc).imp_left fun hc => List.mem_append_right _ ?_
    rwa [hopen] at hc

end Grown

end

end DocPages.Media
