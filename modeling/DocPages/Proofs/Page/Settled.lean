import DocPages.Proofs.Page.Grown

/-!
# Settled media addresses

The pass for images resolves every image with a reserved path, if no other begins in the parentheses of one. The pass for
tags resolves the last source of a tag only. So one run settles the addresses of a text exactly if no tag has two reserved
sources, be they sources of the image or of attributes with longer names.
-/

namespace DocPages.Media

variable {s t u : Text} {r : Reference} {p : Char → Bool} {o : Origin} {root : ReservedRoot}

/-! ## What the passes take and put in -/

/-- An address with the origin in front. -/
def put (o : Origin) (r : Reference) : Text := r.before ++ (o.text ++ (r.url ++ r.after))

/-- The reader takes paths below a root behind a character of the class. -/
structure Addresses (p : Char → Bool) (read : Reader Char Reference) : Prop where
  text {t rest : Text} {r : Reference} (h : read t = some (r, rest)) : t = r.before ++ (r.url ++ r.after) ++ rest
  before {t rest : Text} {r : Reference} (h : read t = some (r, rest)) : ∃ b c, r.before = b ++ [c] ∧ p c = true
  url {t rest : Text} {r : Reference} (h : read t = some (r, rest)) : ∃ u, r.url = '/' :: u

theorem addresses_image (root : ReservedRoot) : Addresses (· == '(') (image? root.path) where
  text h := by
    rw [(image?_eq_some h).text]
    simp
  before h := by
    obtain ⟨label, d, u, title, -, -, -, -, rfl⟩ := image?_parts h
    exact ⟨"![" ++ (label ++ "]"), '(', by simp, rfl⟩
  url h := by
    obtain ⟨label, d, u, title, -, -, -, -, rfl⟩ := image?_parts h
    exact root.exists_cons _

theorem addresses_imageTag (root : ReservedRoot) : Addresses isQuote (imageTag? root.path) where
  text h := by
    rw [(imageTag?_eq_some h).text]
    simp
  before h := by
    obtain ⟨c, inside, q, v, q', -, -, hq, -, rfl⟩ := imageTag?_quoted h
    exact ⟨"<img" ++ c :: (inside ++ "src="), q, by simp, hq⟩
  url h := by
    obtain ⟨c, inside, q, v, q', -, -, -, -, rfl⟩ := imageTag?_quoted h
    exact root.exists_cons v

namespace Addresses

variable {read : Reader Char Reference}

theorem takes (h : Addresses p read) : Takes read := by
  intro t r rest hread
  obtain ⟨b, c, hb, -⟩ := h.before hread
  exact ⟨r.before ++ (r.url ++ r.after), by simp [hb], h.text hread⟩

theorem grown_put (h : Addresses p read) {rest : Text} (hread : read t = some (r, rest)) :
    Grown p o (r.before ++ (r.url ++ r.after)) (put o r) := by
  obtain ⟨b, c, hb, hc⟩ := h.before hread
  obtain ⟨u, hu⟩ := h.url hread
  have hput : put o r = b ++ (c :: (o.text ++ '/' :: (u ++ r.after))) := by simp [put, hb, hu]
  have htext : r.before ++ (r.url ++ r.after) = b ++ (c :: '/' :: (u ++ r.after)) := by simp [hb, hu]
  rw [hput, htext]
  exact (Grown.refl b).append (.origin hc (.refl _))

/-- The pass puts the origin in and changes nothing else. -/
theorem grown (h : Addresses p read) (t : Text) : Grown p o t (Text.mapFound read (put o) t) := by
  induction t using h.takes.induction with
  | nil => exact .nil
  | kept c t hread ih =>
    rw [Text.mapFound_kept hread]
    exact .cons c ih
  | found s t r hs hread ih =>
    rw [Text.mapFound_front hs hread]
    obtain rfl : s = r.before ++ (r.url ++ r.after) := List.append_cancel_right (h.text hread)
    exact (h.grown_put hread).append ih

theorem length_mapFound (h : Addresses p read) (t : Text) :
    (Text.mapFound read (put o) t).length = t.length + (found read t).length * o.text.length := by
  induction t using h.takes.induction with
  | nil => simp [Text.mapFound, found, pieces, piecesFrom]
  | kept c t hread ih =>
    rw [Text.mapFound_kept hread, found_kept hread, List.length_cons, ih, List.length_cons]
    omega
  | found s t r hs hread ih =>
    obtain rfl : s = r.before ++ (r.url ++ r.after) := List.append_cancel_right (h.text hread)
    rw [Text.mapFound_front hs hread, found_front hs hread, List.length_append, ih, put, List.length_cons, Nat.succ_mul]
    simp only [List.length_append]
    omega

end Addresses

/-! ## Images -/

/-- A label whose image begins with the origin belongs to no image with a path below the root. -/
theorem image?_origin {label : Text} (hlabel : ']' ∉ label) (u : Text) :
    image? root.path (label ++ ']' :: '(' :: (o.text ++ u)) = none := by
  refine Option.isSome_eq_false_iff.1 (Bool.eq_false_iff.2 fun hread => ?_) |> Option.isNone_iff_eq_none.1
  obtain ⟨label', d, v, hlabel', -, -, ht⟩ := isSome_image?_iff.1 hread
  have hlabels : ']' ∉ ("![" : Text) ++ label' := List.not_mem_append (by decide) hlabel'
  obtain ⟨w, hw⟩ := root.exists_cons (d :: v)
  have ht : label ++ ']' :: '(' :: (o.text ++ u) = ("![" ++ label') ++ ']' :: '(' :: '/' :: w := by
    rw [ht, hw]
    rfl
  exact o.append_ne _ _ (List.cons.inj (eq_of_append_cons hlabel hlabels ht).2).2

/-- A resolved image is none with a path below the root, and none begins inside it if that has been so before. -/
theorem image_refused_put {rest : Text} (h : image? root.path t = some (r, rest))
    (hparens : ¬ ("![" : Text) <:+: r.url ++ r.after) (x : Text) : Refused (image? root.path) (put o r) x := by
  obtain ⟨label, d, v, title, hlabel, -, -, -, hr⟩ := image?_parts h
  obtain ⟨w, hw⟩ := (addresses_image root).url h
  have hput : put o r = ("![" ++ label) ++ ("](" ++ (o.text ++ ((r.url ++ title) ++ [')']))) := by
    simp [put, hr]
  have hmark {s u : Text} (hs : ¬ ("![" : Text) <:+: s) (hu : ∀ c ∈ u.head?, c ∉ ['[']) :
      Refused (image? root.path) s u :=
    Text.refused_of_clear (Markup.begins_image root.path) (@Text.clear_of_infix_free '!' ['['] s u hs hu)
  have hlast {s u : Text} (hs : '!' ∉ s) : Refused (image? root.path) s u :=
    Text.refused_of_clear (Markup.begins_image root.path) (Text.clear_of_notMem hs u)
  have hlabels (u : Text) : Refused (image? root.path) ("![" ++ label) ("](" ++ (o.text ++ u)) := by
    intro a b hab _
    have hclose : ']' ∉ ("![" : Text) ++ label := List.not_mem_append (by decide) hlabel
    exact image?_origin (fun hmem => hclose (hab ▸ List.mem_append_right a hmem)) u
  have htitle : ¬ ("![" : Text) <:+: r.url ++ title := fun hmark => hparens (hmark.trans ⟨[], [')'], by simp [hr]⟩)
  have hslash (u : Text) : ∀ c ∈ (r.url ++ u).head?, c ∉ ['['] := by simp [hw]
  rw [hput]
  refine .append ?_ (.append (hlast (by decide)) (.append (hmark o.unmarked ?_) (.append (hmark htitle (by simp))
    (hlast (by decide)))))
  · rw [List.append_assoc, List.append_assoc]
    exact hlabels _
  · rw [List.append_assoc, List.append_assoc]
    exact hslash _

/-- The pass for images leaves none with a path below the root, if no other image begins inside the parentheses of one. -/
theorem images_refused (hparens : ∀ s, s <:+ t → ∀ r rest, image? root.path s = some (r, rest) →
      ¬ ("![" : Text) <:+: r.url ++ r.after) :
    Refused (image? root.path) (Text.mapFound (image? root.path) (put o) t) [] := by
  have haddresses := addresses_image root
  induction t using haddresses.takes.induction with
  | nil => exact .nil _ _
  | kept c t hread ih =>
    have hgrown := (haddresses.grown (o := o) (c :: t)).image_none delimits_paren hread
    rw [Text.mapFound_kept hread] at hgrown ⊢
    exact .cons (by rwa [List.append_nil]) (ih fun s hs => hparens s (hs.trans (List.suffix_cons c t)))
  | found s t r hs hread ih =>
    rw [Text.mapFound_front hs hread]
    exact .append (image_refused_put hread (hparens _ (List.suffix_refl _) r t hread) _)
      (ih fun s' hs' => hparens s' (hs'.trans (List.suffix_append s t)))

/-! ## Tags -/

/-- Whether a source begins in front of a quote depends on nothing behind that quote. -/
theorem isSome_source?_congr {w x y : Text} {c q : Char} (hlong : 4 ≤ w.length) (hq : isQuote q = true)
    (h : (source? root.path (c :: (w ++ q :: x))).isSome = true) :
    (source? root.path (c :: (w ++ q :: y))).isSome = true := by
  obtain ⟨q₁, d, u, hq₁, hd, -, ht⟩ := isSome_source?_iff.1 h
  obtain ⟨m, hm⟩ : ("src=" : Text) ++ [q₁] <+: c :: w := by
    refine List.prefix_of_prefix_length_le ⟨root.path ++ d :: u, ?_⟩ ⟨q :: x, rfl⟩ (by simpa using hlong)
    rw [List.append_assoc]
    exact ht.symm
  have hvalue : (root.path ++ [d]) ++ u = m ++ q :: x := by
    have hboth : ("src=" ++ [q₁]) ++ (m ++ q :: x) = ("src=" ++ [q₁]) ++ ((root.path ++ [d]) ++ u) := by
      rw [← List.append_assoc, hm, List.append_assoc, List.append_assoc]
      exact ht
    exact (List.append_cancel_left hboth).symm
  have hplain : q ∉ root.path ++ [d] :=
    List.not_mem_append (fun hmem => root.plain q hmem (delimits_quote q hq))
      fun hmem => notMem_quote hd hq (List.mem_singleton.2 (List.mem_singleton.1 hmem).symm)
  obtain ⟨m, rfl, -⟩ := exists_append_of_append_cons hplain hvalue
  refine isSome_source?_iff.2 ⟨q₁, d, m ++ q :: y, hq₁, hd, ⟨q, by simp, hq⟩, ?_⟩
  rw [← List.cons_append, ← hm]
  simp

/-- A source stays one where a later one is resolved. -/
theorem isSome_source?_put {rest : Text} (h : lastSource? root.path t = some (r, rest)) (c : Char) (rest' : Text) :
    (source? root.path (c :: (put o r ++ rest'))).isSome = (source? root.path (c :: t)).isSome := by
  have htext := (lastSource?_eq_some h).text
  obtain ⟨inside, q, v, q', -, hq, -, rfl⟩ := lastSource?_quoted h
  have hlong : 4 ≤ (inside ++ "src=" : Text).length := by simp
  have hold : c :: t = c :: ((inside ++ "src=") ++ q :: (root.path ++ v ++ [q'] ++ rest)) := by
    rw [htext]
    simp
  have hnew : c :: (put o ⟨inside ++ ("src=" ++ [q]), root.path ++ v, [q']⟩ ++ rest') =
      c :: ((inside ++ "src=") ++ q :: (o.text ++ (root.path ++ v ++ [q']) ++ rest')) := by simp [put]
  rw [hold, hnew, Bool.eq_iff_iff]
  exact ⟨isSome_source?_congr hlong hq, isSome_source?_congr hlong hq⟩

/-- A source with no other behind it is none any more where it is resolved. -/
theorem sources_put {c : Char} {rest rest' : Text} (h : source? root.path (c :: t) = some (r, rest))
    (hlater : sources root.path t = 0) (hrest : Grown isQuote o rest rest') : sources root.path (put o r ++ rest') = 0 := by
  have htext := (source?_eq_some h).text
  obtain ⟨q, d, u, q', hq, -, -, -, -, rfl⟩ := source?_parts h
  generalize d :: u.takeWhile (!isQuote ·) = v at htext ⊢
  obtain ⟨w, hw⟩ := root.exists_cons v
  obtain ⟨rfl, ht⟩ : c = 's' ∧ t = "rc=" ++ (q :: '/' :: (w ++ [q'] ++ rest)) := by
    rw [hw] at htext
    simpa using htext
  have hput : put o ⟨"src=" ++ [q], root.path ++ v, [q']⟩ ++ rest' =
      's' :: ("rc=" ++ (q :: (o.text ++ '/' :: (w ++ [q'] ++ rest')))) := by simp [put, hw]
  generalize hnew : "rc=" ++ (q :: (o.text ++ '/' :: (w ++ [q'] ++ rest'))) = new at hput
  have hgrown : Grown isQuote o t new := by
    rw [ht, ← hnew]
    exact (Grown.refl "rc=").append (.origin hq ((Grown.refl ('/' :: (w ++ [q']))).append hrest))
  have hnone : (source? root.path ('s' :: new)).isSome = false := by
    refine Bool.eq_false_iff.2 fun hread => ?_
    rw [← hnew] at hread
    obtain ⟨q₁, d, u, -, -, -, hvalue⟩ := isSome_source?_iff.1 hread
    obtain ⟨x, hx⟩ := root.exists_cons (d :: u)
    have hvalue : ("src=" : Text) ++ q :: (o.text ++ '/' :: (w ++ [q'] ++ rest')) = "src=" ++ q₁ :: '/' :: x := hx ▸ hvalue
    exact o.append_ne _ _ (List.cons.inj (List.append_cancel_left hvalue)).2
  have hnoMore : sources root.path new ≤ sources root.path t := hgrown.sources_le delimits_quote
  have hname : ('s' : Char) ≠ '>' := by decide
  rw [hput, sources, hnone, if_neg hname, if_neg Bool.false_ne_true]
  omega

/-- With its last source resolved a tag has one less. -/
theorem sources_resolved {rest rest' : Text} (h : lastSource? root.path t = some (r, rest))
    (hrest : Grown isQuote o rest rest') : sources root.path (put o r ++ rest') + 1 = sources root.path t := by
  induction t generalizing r with
  | nil => cases h
  | cons c t ih =>
    simp only [lastSource?] at h
    rcases Option.or_eq_some_iff.1 h with h | ⟨hnone, h⟩
    · split at h
      · cases h
      · next hc =>
        obtain ⟨⟨r', u⟩, hlater, he⟩ := Option.map_eq_some_iff.1 h
        obtain ⟨rfl, rfl⟩ := Prod.mk.inj he
        have hput : put o { r' with before := c :: r'.before } ++ rest' = c :: (put o r' ++ rest') := rfl
        rw [hput, sources, sources, if_neg hc, if_neg hc, ← ih hlater, isSome_source?_put hlater, Nat.add_assoc]
    · have hname : c ≠ '>' := by
        obtain ⟨q, d, u, q', -, -, -, -, ht, -⟩ := source?_parts h
        rw [(List.cons.inj ht).1]
        decide
      have hnone : lastSource? root.path t = none := by simpa [hname] using hnone
      have hlater : sources root.path t = 0 :=
        Nat.eq_zero_of_not_pos fun hpos => by simpa [hnone] using isSome_lastSource?_iff.2 hpos
      rw [sources_put h hlater hrest, sources, h, if_neg hname, hlater]
      rfl

theorem tagSources_resolved {rest rest' : Text} (h : imageTag? root.path t = some (r, rest))
    (hrest : Grown isQuote o rest rest') : tagSources root.path (put o r ++ rest') + 1 = tagSources root.path t := by
  obtain ⟨c, u, r', hc, rfl, hlast, rfl⟩ := imageTag?_parts h
  have hput : put o { r' with before := "<img" ++ c :: r'.before } ++ rest' = "<img" ++ c :: (put o r' ++ rest') := rfl
  rw [hput, tagSources_tag hc, tagSources_tag hc, sources_resolved hlast hrest]

section
variable {rest : Text}

theorem imageTag_refused_of_notMem (hs : '<' ∉ s) (u : Text) : Refused (imageTag? root.path) s u :=
  Text.refused_of_clear (Markup.begins_imageTag root.path) (Text.clear_of_notMem hs u)

/-- No tag begins in the address of one, or at the quote behind it. -/
theorem notMem_address (h : imageTag? root.path t = some (r, rest)) (hurl : '<' ∉ r.url) : '<' ∉ r.url ++ r.after := by
  obtain ⟨c, inside, q, v, q', -, -, -, hq, rfl⟩ := imageTag?_quoted h
  exact List.not_mem_append hurl (notMem_quote (by decide) hq)

/-- A tag with one source has no other tag with two in it. -/
theorem tagSources_le_one (h : imageTag? root.path t = some (r, rest)) (hurl : '<' ∉ r.url)
    (hone : tagSources root.path t ≤ 1) (hrest : ∀ s, s <:+ rest → tagSources root.path s ≤ 1) (hs : s <:+ t) :
    tagSources root.path s ≤ 1 := by
  obtain rfl := (addresses_imageTag root).text h
  rw [List.append_assoc] at hone
  obtain ⟨a, ha⟩ := hs
  rcases List.append_eq_append_iff.1 ha with ⟨m, hm, rfl⟩ | ⟨m, -, hm⟩
  · rcases List.append_eq_append_iff.1 hm with ⟨n, -, hn⟩ | ⟨n, hn, rfl⟩
    · cases m with
      | nil => exact hrest rest (List.suffix_refl rest)
      | cons e m =>
        have he : '<' ∉ e :: m := fun hmem => notMem_address h hurl (hn ▸ List.mem_append_right n hmem)
        rw [imageTag?_eq_none_iff.1 (imageTag_refused_of_notMem he rest [] (e :: m) rfl (by simp))]
        exact Nat.zero_le 1
    · rw [List.append_assoc]
      exact (tagSources_before h hn _).trans hone
  · exact hrest s ⟨m, hm.symm⟩

/-- Where a resolved tag is none with a path below the root, none begins inside it. -/
theorem imageTag_refused_put (h : imageTag? root.path t = some (r, rest)) (hurl : '<' ∉ r.url) {x : Text}
    (hnone : tagSources root.path (put o r ++ x) = 0) : Refused (imageTag? root.path) (put o r) x := by
  refine .append (fun a b hab _ => ?_)
    (imageTag_refused_of_notMem (List.not_mem_append (o.notMem (by decide)) (notMem_address h hurl)) x)
  have hle := tagSources_before h hab (o.text ++ (r.url ++ r.after) ++ x)
  rw [← List.append_assoc r.before] at hle
  exact imageTag?_eq_none_iff.2 (Nat.le_zero.1 (hnone ▸ hle))

end

/-- The pass for tags leaves no path below the root in them exactly if no tag had two. -/
theorem tags_refused_iff (hlt : ∀ s, s <:+ t → ∀ r rest, imageTag? root.path s = some (r, rest) → '<' ∉ r.url) :
    Refused (imageTag? root.path) (Text.mapFound (imageTag? root.path) (put o) t) [] ↔
      ∀ s, s <:+ t → tagSources root.path s ≤ 1 := by
  have haddresses := addresses_imageTag root
  induction t using haddresses.takes.induction with
  | nil =>
    refine iff_of_true (.nil _ _) fun s hs => ?_
    rw [List.suffix_nil.1 hs]
    exact Nat.zero_le 1
  | kept c t hread ih =>
    have hnone : tagSources root.path (c :: t) = 0 := imageTag?_eq_none_iff.1 hread
    have hgrown : tagSources root.path _ ≤ tagSources root.path (c :: t) :=
      (haddresses.grown (o := o) (c :: t)).tagSources_le delimits_quote
    rw [Text.mapFound_kept hread] at hgrown ⊢
    have ih := ih fun s hs => hlt s (hs.trans (List.suffix_cons c t))
    constructor
    · intro hrefused s hs
      rcases List.suffix_cons_iff.1 hs with rfl | hs
      · omega
      · exact ih.1 hrefused.tail s hs
    · intro hone
      refine .cons ?_ (ih.2 fun s hs => hone s (hs.trans (List.suffix_cons c t)))
      rw [List.append_nil]
      exact imageTag?_eq_none_iff.2 (by omega)
  | found s t r hs hread ih =>
    have ih := ih fun s' hs' => hlt s' (hs'.trans (List.suffix_append s t))
    have hurl := hlt _ (List.suffix_refl _) r t hread
    have hresolved := tagSources_resolved hread (haddresses.grown (o := o) t)
    rw [Text.mapFound_front hs hread]
    generalize Text.mapFound (imageTag? root.path) (put o) t = x at ih hresolved ⊢
    constructor
    · intro hrefused s' hs'
      have hne : put o r ++ x ≠ [] := by
        obtain ⟨b, c, hb, -⟩ := haddresses.before hread
        simp [put, hb]
      have hhead : imageTag? root.path (put o r ++ x) = none := by
        have hread := hrefused [] _ rfl hne
        rwa [List.append_nil] at hread
      have hzero := imageTag?_eq_none_iff.1 hhead
      exact tagSources_le_one hread hurl (by omega) (ih.1 hrefused.behind) hs'
    · intro hone
      have hwhole := hone _ (List.suffix_refl _)
      refine .append ?_ (ih.2 fun s' hs' => hone s' (hs'.trans (List.suffix_append s t)))
      rw [List.append_nil]
      exact imageTag_refused_put hread hurl (by omega)

/-! ## Settled texts -/

/-- An image tag of the text has a source with a path below the root. -/
def Sourced (root t : Text) : Prop := ∃ (front : Text) (c : Char) (inside : Text) (q d : Char) (rest : Text),
  t = front ++ ("<img" ++ c :: (inside ++ ("src=" ++ q :: (root ++ d :: rest)))) ∧ isBlank c = true ∧ '>' ∉ inside ∧
    (∀ e ∈ (c :: inside).getLast?, Attributes.isNameChar e = false) ∧ isQuote q = true ∧ isQuote d = false ∧
    ∃ e ∈ rest, isQuote e = true

/-- No image begins in the parentheses of one with a path below the root, and no tag in the value of such a source. -/
structure Unnested (root t : Text) : Prop where
  parens : ∀ s, s <:+ t → ∀ r rest, image? root s = some (r, rest) → ¬ ("![" : Text) <:+: r.url ++ r.after
  values : ∀ s, s <:+ t → ∀ r rest, source? root s = some (r, rest) → '<' ∉ r.url

theorem not_sourced_of_refused {root : Text} (h : Refused (imageTag? root) t []) : ¬ Sourced root t := by
  rintro ⟨front, c, inside, q, d, rest, ht, hc, hinside, -, hq, hd, hclose⟩
  have hread := h front _ ht (by simp)
  rw [List.append_nil, imageTag?_eq_none_iff, tagSources_tag hc] at hread
  have hsource : (source? root ("src=" ++ q :: (root ++ d :: rest))).isSome = true :=
    isSome_source?_iff.2 ⟨q, d, rest, hq, hd, hclose, rfl⟩
  have hone : 0 < sources root ("src=" ++ q :: (root ++ d :: rest)) := sources_pos hsource
  have hle : sources root ("src=" ++ q :: (root ++ d :: rest)) ≤ _ := sources_le_append hinside _
  omega

/-- What the pass for images leaves has no tag in the value of a source either. -/
theorem Grown.values (h : Grown (· == '(') o t u)
    (ht : ∀ s, s <:+ t → ∀ r rest, source? root.path s = some (r, rest) → '<' ∉ r.url) :
    ∀ s, s <:+ u → ∀ r rest, imageTag? root.path s = some (r, rest) → '<' ∉ r.url := by
  intro s hs r rest hread hmem
  obtain ⟨c, v, r', -, rfl, hlast, rfl⟩ := imageTag?_parts hread
  obtain ⟨inside, w, r'', -, rfl, hsource, rfl⟩ := lastSource?_parts hlast
  have hsuffix : w <:+ u :=
    (((List.suffix_append inside w).trans (List.suffix_cons c _)).trans (List.suffix_append _ _)).trans hs
  rcases h.of_suffix hsuffix with ⟨s', hs', hgrown⟩ | ⟨m, x, -, hm, rfl⟩
  · obtain ⟨⟨r₀, rest₀⟩, hread₀⟩ := Option.isSome_iff_exists.1 (hgrown.source delimits_paren (by rw [hsource]; rfl))
    rcases hgrown.mem_url hread₀ hsource hmem with hmem | hmem
    · exact ht s' hs' r₀ rest₀ hread₀ hmem
    · exact o.notMem (by decide) hmem
  · have hnone : (source? root.path (m ++ '/' :: x)).isSome = false :=
      source?_slash (fun c hc => o.not_isQuote (hm.subset hc)) x
    rw [hsource] at hnone
    cases hnone

theorem resolveAll_eq (t : Text) : resolveAll root.path (o.text ++ ·) t =
    Text.mapFound (imageTag? root.path) (put o) (Text.mapFound (image? root.path) (put o) t) := by
  have hwrite : (fun r : Reference => r.before ++ (o.text ++ r.url) ++ r.after) = put o := by
    funext r
    simp [put]
  rw [resolveAll, hwrite]

/-- A text without images to resolve is left by another run exactly if there is no tag to resolve. -/
theorem resolveAll_eq_self_iff (h : Refused (image? root.path) t []) :
    resolveAll root.path (o.text ++ ·) t = t ↔ Refused (imageTag? root.path) t [] := by
  constructor
  · intro hagain
    have hlength := (addresses_imageTag root).length_mapFound (o := o) t
    rw [resolveAll_eq, Text.mapFound_of_refused h] at hagain
    rw [hagain] at hlength
    have horigin : 0 < o.text.length := List.length_pos_iff.2 o.ne_nil
    have hnone : (found (imageTag? root.path) t).length * o.text.length = 0 := by omega
    have hfound : (found (imageTag? root.path) t).length = 0 :=
      (Nat.mul_eq_zero.1 hnone).resolve_right (by omega)
    exact found_eq_nil_iff.1 (List.length_eq_zero_iff.1 hfound)
  · exact fun hrefused => resolveAll_of_refused h hrefused _

/-- **Media addresses are settled after one run**, so that another one changes nothing and no image tag has a source with
a reserved path, exactly if no image tag had two of them: the pass for tags resolves the last one only. -/
theorem resolveAll_settled_iff (o : Origin) (root : ReservedRoot) (t : Text) (h : Unnested root.path t) :
    let settle := resolveAll root.path (o.text ++ ·)
    settle (settle t) = settle t ∧ ¬ Sourced root.path (settle t) ↔
      ∀ s, s <:+ t → tagSources root.path s ≤ 1 := by
  intro settle
  let u := Text.mapFound (image? root.path) (put o) t
  have hsettle : settle t = Text.mapFound (imageTag? root.path) (put o) u := resolveAll_eq t
  have hu : Grown (· == '(') o t u := (addresses_image root).grown t
  have hnoImage : Refused (image? root.path) (settle t) [] := by
    rw [hsettle]
    exact ((addresses_imageTag root).grown u).refused_image delimits_quote (images_refused h.parens)
  have htags : Refused (imageTag? root.path) (settle t) [] ↔ ∀ s, s <:+ t → tagSources root.path s ≤ 1 := by
    rw [hsettle, tags_refused_iff (hu.values h.values), hu.tagSources_le_one_iff]
  rw [← htags, resolveAll_eq_self_iff hnoImage]
  exact ⟨And.left, fun hrefused => ⟨hrefused, not_sourced_of_refused hrefused⟩⟩

/-- An image and an image tag. -/
theorem resolveAll_settled_images :
    let o : Origin := ⟨"https://h", by decide, by decide, by decide⟩
    let root : ReservedRoot := ⟨"/_r2/", rfl, by decide⟩
    let t : Text := "![a](/_r2/a.png)\n<img alt=\"b\" src=\"/_r2/b.png\">"
    let settle := resolveAll root.path (o.text ++ ·)
    Unnested root.path t ∧ (∀ s, s <:+ t → tagSources root.path s ≤ 1) ∧
      settle t = "![a](https://h/_r2/a.png)\n<img alt=\"b\" src=\"https://h/_r2/b.png\">".toList ∧
      settle (settle t) = settle t ∧ ¬ Sourced root.path (settle t) := by
  intro o root t settle
  have hunnested : Unnested root.path t := {
    parens := fun s hs r rest hread =>
      (by decide +kernel : ∀ s ∈ t.tails, ∀ p ∈ image? root.path s, ¬ ("![" : Text) <:+: p.1.url ++ p.1.after) s
        ((List.mem_tails s t).2 hs) (r, rest) hread
    values := fun s hs r rest hread =>
      (by decide +kernel : ∀ s ∈ t.tails, ∀ p ∈ source? root.path s, '<' ∉ p.1.url) s
        ((List.mem_tails s t).2 hs) (r, rest) hread }
  have hone : ∀ s, s <:+ t → tagSources root.path s ≤ 1 := fun s hs =>
    (by decide +kernel : ∀ s ∈ t.tails, tagSources root.path s ≤ 1) s ((List.mem_tails s t).2 hs)
  exact ⟨hunnested, hone, by decide +kernel, (resolveAll_settled_iff o root t hunnested).2 hone⟩

/-- Of two sources in a tag the last one is resolved, be it that of an attribute with a longer name, and the source of the
image is left; another run finds it. -/
theorem resolveAll_leaves_source :
    let o : Origin := ⟨"https://h", by decide, by decide, by decide⟩
    let root : ReservedRoot := ⟨"/_r2/", rfl, by decide⟩
    let t : Text := "<img src=\"/_r2/a\" data-src=\"/_r2/b\">"
    let settle := resolveAll root.path (o.text ++ ·)
    settle t = "<img src=\"/_r2/a\" data-src=\"https://h/_r2/b\">".toList ∧ Sourced root.path (settle t) ∧
      settle (settle t) = "<img src=\"https://h/_r2/a\" data-src=\"https://h/_r2/b\">".toList ∧
      settle (settle t) ≠ settle t := by
  intro o root t settle
  have hfirst : settle t = "<img src=\"/_r2/a\" data-src=\"https://h/_r2/b\">".toList := by decide +kernel
  refine ⟨hfirst, ?_, by decide +kernel, by decide +kernel⟩
  rw [hfirst]
  exact ⟨[], ' ', [], '"', 'a', "\" data-src=\"https://h/_r2/b\">", rfl, by decide, by decide,
    by rintro e ⟨⟩; decide, by decide, by decide, '"', by decide, by decide⟩

end DocPages.Media
