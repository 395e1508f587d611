import DocPages.Proofs.Page.Lossless

/-!
# Tags of the API reference in tidy texts

In a tidy text a payload ends within its tag, so a tag of the API reference is read exactly up to its bracket, and
nothing behind it is taken along. The marks of the request are tags as well, and putting the request into a section of
its own keeps what stands around them.
-/

namespace DocPages

open DocPages.Shelf (token place)

namespace Text

/-- A text is cut within what stands in front of a character that does not occur in its beginning. -/
theorem append_of_notMem {x s y v : Text} {c : Char} (h : x ++ s = y ++ c :: v) (hx : c ∉ x) :
    ∃ r, y = x ++ r ∧ s = r ++ c :: v := by
  rcases List.append_eq_append_iff.1 h with ⟨r, hy, hs⟩ | ⟨r, rfl, hv⟩
  · exact ⟨r, hy, hs⟩
  · cases r with
    | nil => exact ⟨[], by simp, by simpa using hv.symm⟩
    | cons d r =>
      obtain ⟨rfl, -⟩ := List.cons.inj hv
      exact absurd (by simp) hx

/-- A cut stays where it is when the text goes on. -/
theorem cut?_append_right {sep t before rest : Text} (h : cut? sep t = some (before, rest)) (u : Text) :
    cut? sep (t ++ u) = some (before, rest ++ u) := by
  have hclear : Clear sep before (sep ++ (rest ++ u)) := by
    refine clear_iff.2 fun a b hab hb hsep => clear_iff.1 (clear_of_cut? h) a b hab hb ?_
    have hlen : sep.length ≤ (b ++ (sep ++ rest)).length := by
      simp only [List.length_append]
      omega
    have hlonger : b ++ (sep ++ rest) <+: b ++ (sep ++ (rest ++ u)) := ⟨u, by simp⟩
    exact List.prefix_of_prefix_length_le hsep hlonger hlen
  rw [cut?_eq_some h, List.append_assoc, List.append_assoc]
  exact cut?_append hclear

end Text

namespace Api

variable {c : Component} {y v rest : Text} {o : Occurrence}

theorem splitClosing_append_right {q : Quoting} {depth : Int} {t before rest : Text}
    (h : splitClosing q depth t = some (before, rest)) (u : Text) :
    splitClosing q depth (t ++ u) = some (before, rest ++ u) := by
  induction t generalizing q depth before with
  | nil => cases h
  | cons c t ih =>
    rw [splitClosing] at h
    rw [List.cons_append, splitClosing]
    split at h
    · next hc =>
      obtain ⟨rfl, rfl⟩ := Prod.mk.inj (Option.some.inj h)
      exact if_pos hc
    · next hc =>
      obtain ⟨⟨b, r⟩, hb, he⟩ := Option.map_eq_some_iff.1 h
      obtain ⟨rfl, rfl⟩ := Prod.mk.inj he
      rw [if_neg hc, ih hb]
      rfl

theorem bracketless_attr (c : Component) : '>' ∉ c.attr ++ ['=', '\x7b'] := by cases c <;> decide

theorem payloadStart?_append (hy : '>' ∉ y) (v : Text) :
    payloadStart? c (y ++ '>' :: v) = (payloadStart? c y).map (· ++ '>' :: v) := by
  cases hcut : Text.cut? (c.attr ++ ['=', '\x7b']) y with
  | some p =>
    obtain ⟨before, rest⟩ := p
    have hbefore : '>' ∉ before := fun hmem => hy (by simp [Text.cut?_eq_some hcut, hmem])
    simp [payloadStart?, Text.cut?_append_right hcut, hcut, hbefore]
  | none =>
    cases hlater : Text.cut? (c.attr ++ ['=', '\x7b']) (y ++ '>' :: v) with
    | none => simp [payloadStart?, hcut, hlater]
    | some p =>
      obtain ⟨before, rest⟩ := p
      have hbefore : '>' ∈ before := by
        by_contra hnot
        have hsplit : (before ++ (c.attr ++ ['=', '\x7b'])) ++ rest = y ++ '>' :: v := by
          rw [Text.cut?_eq_some hlater, List.append_assoc]
        obtain ⟨r, rfl, -⟩ := Text.append_of_notMem hsplit (by simpa [hnot] using bracketless_attr c)
        exact Text.cut?_eq_none_iff.1 hcut ⟨before, r, by simp⟩
      simp [payloadStart?, hcut, hlater, hbefore]

theorem afterTag?_append (hy : '>' ∉ y) (v : Text) : afterTag? (y ++ '>' :: v) = some v := by
  have hcut : Text.cut? ['>'] (y ++ (['>'] ++ v)) = some (y, v) := Text.cut?_append (Text.clear_of_notMem hy _)
  exact congrArg (Option.map Prod.snd) hcut

theorem occurrence?_tag (c : Component) (s : Text) (hs : endsName s = true) :
    occurrence? c ('<' :: (c.tag ++ s)) = match payloadStart? c s with
      | none => some (.bare, (afterTag? s).getD [])
      | some body => match splitClosing .outside 1 body with
        | none => some (.unclosed, s)
        | some (raw, rest) => some (.payload raw, (afterTag? rest).getD rest) := by
  have hafter : Text.after? ('<' :: c.tag) ('<' :: (c.tag ++ s)) = some s := Text.after?_append ('<' :: c.tag) s
  simp only [occurrence?, hafter, Option.bind_eq_bind, Option.bind_some, hs]
  rfl

/-- The bracket behind a tag is the last character and not the brace, so it stands behind the brace. -/
theorem bracket_behind_brace {inside raw more : Text} (hinside : '>' ∉ inside)
    (h : splitClosing .outside 1 (inside ++ ['>']) = some (raw, more)) : ∃ m, more = m ++ ['>'] ∧ '>' ∉ m := by
  have hsplit : inside ++ ['>'] = raw ++ '\x7d' :: more := eq_of_splitClosing h
  have hlast := congrArg List.getLast? hsplit
  rcases List.eq_nil_or_concat more with rfl | ⟨m, d, rfl⟩
  · simp at hlast
  · obtain rfl : d = '>' := by simpa [List.getLast?_cons, eq_comm] using hlast
    have hm : inside = raw ++ '\x7d' :: m := List.append_cancel_right (hsplit.trans (by simp))
    exact ⟨m, by simp, fun hmem => hinside (by simp [hm, hmem])⟩

/-- A tag whose payload ends within it is read up to its bracket. -/
theorem occurrence?_of_closesPayload (hy : '>' ∉ y) (hclose : closesPayload y = true)
    (h : occurrence? c ('<' :: (y ++ '>' :: v)) = some (o, rest)) : o ≠ .unclosed ∧ rest = v := by
  obtain ⟨s, hs, hname, hcase⟩ := occurrence?_eq_some h
  have htag : '>' ∉ c.tag := by cases c <;> decide
  obtain ⟨r, rfl, rfl⟩ := Text.append_of_notMem (List.cons.inj hs).2.symm htag
  have hr : '>' ∉ r := fun hmem => hy (List.mem_append_right _ hmem)
  rw [payloadStart?_append hr] at hcase
  rcases hcase with ⟨rfl, -, rfl⟩ | ⟨body, hstart, hcase⟩
  · exact ⟨by simp, by simp [afterTag?_append hr]⟩
  · obtain ⟨inside, hinside, rfl⟩ := Option.map_eq_some_iff.1 hstart
    -- In the tag on its own the payload ends as well.
    have hends : endsName (r ++ ['>']) = true := by
      cases r with
      | nil => rfl
      | cons d r => exact hname
    have hall : c ∈ Component.all := by cases c <;> decide
    have hclosed := List.all_eq_true.1 hclose c hall
    rw [List.append_assoc, occurrence?_tag c _ hends, payloadStart?_append hr, hinside] at hclosed
    obtain ⟨s₀, -, hattr⟩ := payloadStart?_eq_some hinside
    have hgt : '>' ∉ inside := fun hmem => hr (by rw [hattr]; simp [hmem])
    cases hscan : splitClosing .outside 1 (inside ++ ['>']) with
    | none => simp [hscan] at hclosed
    | some p =>
      obtain ⟨raw, more⟩ := p
      have hlater := splitClosing_append_right hscan v
      rw [List.append_assoc, List.singleton_append] at hlater
      rw [hlater] at hcase
      rcases hcase with ⟨-, hnone, -⟩ | ⟨raw', more', rfl, hsome, rfl⟩
      · cases hnone
      · obtain ⟨rfl, rfl⟩ : raw = raw' ∧ more ++ v = more' := by simpa using hsome
        obtain ⟨m, rfl, hm⟩ := bracket_behind_brace hgt hscan
        exact ⟨by simp, by simp [afterTag?_append hm]⟩

end Api

/-! ## Cards -/

/-- A tag with another first letter holds no payload. -/
theorem closesPayload_of_head {c : Char} (hc : c ≠ 'A') (x : Text) : closesPayload (c :: x) = true := by
  refine List.all_eq_true.2 fun k _ => ?_
  have hnone : Api.occurrence? k ('<' :: (c :: x ++ ['>'])) = none :=
    Markup.begins_occurrence k _ fun h => by cases k <;> exact hc (List.cons_prefix_cons.1 (List.cons_prefix_cons.1 h).2).1.symm
  rw [hnone]
  rfl

/-- A sound tag that has nothing to do with groups. -/
theorem free_tag {c : Char} {x : Text} (hc : c ≠ 'T' ∧ c ≠ 'S' ∧ c ≠ '/') (hlt : '<' ∉ c :: x) (hgt : '>' ∉ c :: x)
    (hsound : isSound (c :: x) = true) : Free ('<' :: (c :: x ++ ['>'])) := by
  have hadmits : Zone.anywhere.admits (c :: x) = true := by simp [Zone.admits, hc.2.2]
  have hrun := Lex.run_tag_of hlt hgt hsound hadmits
  rwa [Zone.behind_of_head hc] at hrun

theorem free_requestMark : Free Api.requestMark := by decide

theorem ungrouped_tag (c : Api.Component) : Lex.Ungrouped c.tag := by
  cases c <;> exact ⟨'A', _, rfl, by decide⟩

theorem keeps_place (maxDepth : Int) (c : Api.Component) {o : Api.Occurrence} (ho : o ≠ .unclosed) {P : Nat → Prop}
    (hP : ∀ n, ¬ P n) : Keeps P (fun x n => Lined false n x) Free (Api.place maxDepth c o) := by
  have hshelve (block : Text) : Keeps P (fun x n => Lined false n x) (fun x => ∃ n, x = place n) (Work.shelve block) :=
    Keeps.shelve fun n hn => absurd hn (hP n)
  have hfree : ∀ x, (∃ n, x = place n) → Free x := by
    rintro x ⟨n, rfl⟩
    exact free_place n
  have hnothing : Keeps P (fun x n => Lined false n x) Free (pure []) := .pure (fun n hn => absurd hn (hP n)) rfl
  cases o with
  | bare => exact hnothing
  | unclosed => exact absurd rfl ho
  | payload raw =>
    simp only [Api.place]
    split
    · exact (Keeps.report _).bind fun _ _ => (hshelve _).mono (fun _ => id) (fun _ _ _ => id) hfree
    · refine (Keeps.withIds (Q := fun _ => P) (R := fun _ => True) (fun _ _ => id) fun _ => trivial).bind fun card _ => ?_
      cases card with
      | none => exact hnothing
      | some card =>
        refine (hshelve _).bind fun held hheld => .pure (fun n hn => ?_) ?_
        · split
          · have hmark := (hn.mono (g := freshBehind false ("\n\n" ++ Api.requestMark)) (by simp)).append_right
            exact ((hmark.append_left Api.requestMark).append_left "\n\n")
          · exact hn
        · split
          · have hbreaks : Free "\n\n" := by decide
            exact (((hbreaks.append free_requestMark).append (hfree _ hheld)).append free_requestMark).append hbreaks
          · exact hfree _ hheld

namespace Carries

theorem placeAll (maxDepth : Int) (c : Api.Component) : Carries (Api.placeAll maxDepth c) := by
  have hbegins : Begins (Api.occurrence? c) ('<' :: c.tag) := Markup.begins_occurrence c
  refine mapFoundM (Api.takes_occurrence c) hbegins (by decide) fun σ τ u t o hr hrun hτ => ?_
  obtain ⟨s, hs, -, -⟩ := Api.occurrence?_eq_some hr
  rw [List.cons_append] at hs
  rw [hs] at hr hrun
  -- The tag is closed behind something sound, which begins with its name.
  obtain ⟨y, v, hy, htext⟩ := Lex.exists_tag hrun hτ
  have htag : '>' ∉ c.tag := by cases c <;> decide
  obtain ⟨r, rfl, rfl⟩ := Text.append_of_notMem htext htag
  obtain ⟨rfl, hsound, hback⟩ := Lex.run_start_tag (ungrouped_tag c) hrun hy
  obtain ⟨ho, rfl⟩ := Api.occurrence?_of_closesPayload hy (Bool.and_eq_true_iff.1 hsound).2 (htext ▸ hr)
  obtain rfl : u = '<' :: ((c.tag ++ r) ++ ['>']) := List.append_cancel_right (hs.trans (by simp))
  exact ⟨⟨rfl, hback⟩, shut_tag ('<' :: (c.tag ++ r)), fun f =>
    keeps_place maxDepth c ho fun n hn => not_token_tag hsound hn.isInfix⟩

end Carries

/-! ## The request -/

theorem run_requestMark {σ τ : Lex} {t : Text} (h : σ.run (Api.requestMark ++ t) = some τ) :
    σ = .start ∧ Lex.start.run t = some τ := by
  have hmark : Api.requestMark ++ t = Element.startTag "!--docforge:request-part--" ++ ([] ++ '>' :: t) := rfl
  have hname : Lex.Ungrouped "!--docforge:request-part--" := ⟨'!', _, rfl, by decide⟩
  rw [hmark] at h
  obtain ⟨rfl, -, ht⟩ := Lex.run_start_tag hname h (by decide)
  exact ⟨rfl, ht⟩

theorem not_token_requestMark (n : Nat) : ¬ token n <:+: Api.requestMark := not_token_of_notMem (by decide)

/-- The marks are taken out of a text. -/
theorem keeps_replace_requestMark (f : Bool) (s : Text) :
    (∀ n, Lined f n s → Lined f n (Text.replace Api.requestMark [] s)) ∧ Replaces s (Text.replace Api.requestMark [] s) := by
  have hne : Api.requestMark ≠ [] := by decide
  refine Keeps.of_pure (P := fun n => Lined f n s) (Q := fun x n => Lined f n x) (R := Replaces s) ?_
  rw [show Text.replace Api.requestMark [] s = Text.mapFound (Text.literal Api.requestMark) (fun _ => []) s from rfl,
    ← Text.mapFoundM_pure]
  have hmark (u t : Text) (a : Unit) (hr : Text.literal Api.requestMark (u ++ t) = some (a, t)) : u = Api.requestMark := by
    obtain ⟨v, hv, he⟩ := Option.map_eq_some_iff.1 hr
    obtain rfl : v = t := congrArg Prod.snd he
    exact List.append_cancel_right (Text.eq_append_of_after? hv)
  refine (Keeps.mapFoundM (takes_literal hne) (fun n t => ?_) f fun u t a _ hr => ?_).mono (fun _ => id) (fun _ _ _ => id)
    fun x hx => hx fun u t a _ hr => ?_
  · exact Text.clear_of_notMem (notMem_token (by decide) n) t
  · obtain rfl := hmark u t a hr
    exact ⟨shut_tag "<!--docforge:request-part--", fun f =>
      .pure (fun n hn => absurd hn.isInfix (not_token_requestMark n)) rfl⟩
  · obtain rfl := hmark u t a hr
    exact fun σ τ _ => run_requestMark

theorem isSound_request (n : Nat) : isSound ('h' :: ("2 id=\"request-" ++ (Text.ofNat n ++ ['"']))) = true := by
  refine Bool.and_eq_true_iff.2 ⟨List.all_eq_true.2 fun part hpart => ?_, closesPayload_of_head (by decide) _⟩
  -- Each part holds a character that the tag does not.
  have hparts : (tagParts.all fun part => part.any fun c => !"h2 id=\"request-\"".toList.contains c && !c.isDigit) = true := by
    decide
  obtain ⟨c, hc, hother⟩ := List.any_eq_true.1 (List.all_eq_true.1 hparts part hpart)
  obtain ⟨hchars, hdigit⟩ : c ∉ "h2 id=\"request-\"".toList ∧ c.isDigit = false := by simpa using hother
  rw [Bool.not_eq_true', Bool.eq_false_iff, ne_eq, Text.includes_iff]
  intro hi
  have hword : "h2 id=\"request-\"".toList = 'h' :: ("2 id=\"request-" ++ ['"']) := rfl
  rw [hword] at hchars
  have hmem := hi.subset hc
  simp only [List.mem_cons, List.mem_append, not_or] at hmem hchars
  rcases hmem with hmem | hmem | hmem | hmem
  · exact hchars.1 hmem
  · exact hchars.2.1 hmem
  · rw [Text.isDigit_of_mem_ofNat hmem] at hdigit
    cases hdigit
  · exact hmem.elim hchars.2.2.1 hchars.2.2.2

theorem free_requestOpening (n : Nat) : Free (Api.requestOpening (IdSupply.id "request" n)) := by
  have hopening : Api.requestOpening (IdSupply.id "request" n) =
      "<div class=\"doc-api-section doc-api-request\">\n" ++
        ('<' :: ('h' :: ("2 id=\"request-" ++ (Text.ofNat n ++ ['"'])) ++ ['>']) ++ "Request</h2>\n") := by
    have hfront : ("<div class=\"doc-api-section doc-api-request\">\n<h2 id=\"" : Text) ++ ("request" ++ ['-']) =
        "<div class=\"doc-api-section doc-api-request\">\n" ++ '<' :: 'h' :: "2 id=\"request-" := by decide
    have hback : ("\">Request</h2>\n" : Text) = '"' :: '>' :: "Request</h2>\n" := by decide
    have hid : IdSupply.id "request" n = ("request" ++ ['-']) ++ Text.ofNat n := (List.append_assoc _ ['-'] _).symm
    unfold Api.requestOpening
    rw [hid, hback, ← List.append_assoc _ _ (Text.ofNat n), hfront]
    simp only [List.append_assoc, List.cons_append, List.nil_append]
  have hdiv : Free "<div class=\"doc-api-section doc-api-request\">\n" := by decide
  have hheading : Free "Request</h2>\n" := by decide
  have hdigits : ∀ c ∈ Text.ofNat n, c ≠ '<' ∧ c ≠ '>' := fun c hc => by
    have hdigit := Text.isDigit_of_mem_ofNat hc
    constructor <;> (rintro rfl; cases hdigit)
  have hlt : '<' ∉ 'h' :: ("2 id=\"request-" ++ (Text.ofNat n ++ ['"'])) := by
    simp only [List.mem_cons, List.mem_append, not_or]
    exact ⟨by decide, by decide, fun hmem => (hdigits _ hmem).1 rfl, by decide, by simp⟩
  have hgt : '>' ∉ 'h' :: ("2 id=\"request-" ++ (Text.ofNat n ++ ['"'])) := by
    simp only [List.mem_cons, List.mem_append, not_or]
    exact ⟨by decide, by decide, fun hmem => (hdigits _ hmem).2 rfl, by decide, by simp⟩
  rw [hopening]
  exact hdiv.append ((free_tag (by decide) hlt hgt (isSound_request n)).append hheading)

/-- What a text around the marks is made of: in front of the section, in it and behind it. -/
theorem Tidy.around_marks {before inner last after : Text} (hlast : inner = [] ∧ last = [] ∨ last = Api.requestMark)
    (h : Tidy (before ++ (Api.requestMark ++ (inner ++ (last ++ after))))) : Free before ∧ Free inner ∧ Tidy after := by
  obtain ⟨z, hz⟩ := h
  obtain ⟨ρ, hbefore, hback⟩ := Lex.run_append_eq_some.1 hz
  obtain ⟨rfl, hrest⟩ := run_requestMark hback
  rcases hlast with ⟨rfl, rfl⟩ | rfl
  · exact ⟨hbefore, rfl, z, hrest⟩
  · obtain ⟨ρ, hinner, hback⟩ := Lex.run_append_eq_some.1 hrest
    obtain ⟨rfl, hafter⟩ := run_requestMark hback
    exact ⟨hbefore, hinner, z, hafter⟩

theorem Lined.around_marks {f : Bool} {n : Nat} {before inner last after : Text}
    (hlast : inner = [] ∧ last = [] ∨ last = Api.requestMark)
    (h : Lined f n (before ++ (Api.requestMark ++ (inner ++ (last ++ after))))) :
    Lined f n before ∨ Lined false n inner ∨ Lined false n after := by
  have hshut : Shut Api.requestMark := shut_tag "<!--docforge:request-part--"
  have hhead (t : Text) : ∀ c ∈ (Api.requestMark ++ t).head?, c.isAlphanum = false := fun c hc => by
    obtain rfl : '<' = c := Option.some.inj hc
    decide
  rcases h.cut (.inr (hhead _)) with h | h
  · exact .inl h
  · have hrest := h.behind (.inl hshut.isAlphanum_getLast) (not_token_requestMark n)
    rw [hshut.freshBehind] at hrest
    rcases hlast with ⟨rfl, rfl⟩ | rfl
    · exact .inr (.inr hrest)
    · refine .inr ((hrest.cut (.inr (hhead _))).imp_right fun h => ?_)
      have hafter := h.behind (.inl hshut.isAlphanum_getLast) (not_token_requestMark n)
      rwa [hshut.freshBehind] at hafter

namespace Carries

theorem wrapRequest : Carries fun t => Work.withIds (Api.wrapRequest t) := by
  intro s hs
  suffices h : ∀ ids, (∀ n, Lined true n s → Lined true n ((Api.wrapRequest s).run ids).1) ∧
      Tidy ((Api.wrapRequest s).run ids).1 from .withIds (fun ids => (h ids).1) fun ids => (h ids).2
  intro ids
  rcases Api.wrapRequest_run s ids with hrun | ⟨before, inner, last, after, id, hlast, rfl, hrun⟩
  · rw [hrun]
    exact ⟨fun _ => id, hs⟩
  · obtain ⟨hbefore, hinner, hafter⟩ := hs.around_marks hlast
    obtain ⟨hlined, hreplaces⟩ := keeps_replace_requestMark false inner
    have hbreaks : Free "\n\n" := by decide
    have hbreak : Free "\n" := by decide
    have hend : Free "\n\n</div>\n\n" := by decide
    have hreplaced : Free (Text.replace Api.requestMark [] inner) := hreplaces _ _ rfl hinner
    rw [hrun]
    constructor
    · intro n hn
      rcases hn.around_marks hlast with hn | hn | hn
      · exact hn.append_left _
      · refine .append_right (.append_right (.append_right (.append_right ?_)))
        exact ((hlined n hn).mono (by simp)).append_left _
      · exact .append_right (.append_right (.append_right (.append_right (.append_right (.append_right (hn.mono (by simp)))))))
    · obtain ⟨z, hz⟩ := hafter
      refine ⟨z, ?_⟩
      rw [hbefore.run_append, hbreaks.run_append, (free_requestOpening id).run_append, hbreak.run_append,
        hreplaced.run_append, hend.run_append, hz]

theorem placeComponents (maxDepth : Int) : Carries (Api.placeComponents maxDepth) :=
  (foldlM fun c _ => placeAll maxDepth c).bind wrapRequest

end Carries

end DocPages
