import DocPages.Page.ApiTags
import DocPages.Proofs.Attributes
import DocPages.Proofs.Page.Anatomy
import DocPages.Proofs.Html.Breaks
import DocPages.Proofs.Json.Breaks
import DocPages.Settings

/-!
# Components in texts with other line breaks

The readers of components ask for line breaks nowhere: within a tag a break is a blank like others, and in a payload
it stands between tokens. So in texts that differ in their breaks the same components are found, whose parts differ
in their breaks.
-/

namespace DocPages

/-! ## Attributes -/

namespace Attributes

theorem readings_delimited {s t : Text} (h : Breaks s t) {close : Char} (hclose : Unbroken [close]) :
    Readings Breaks (delimited close s) (delimited close t) := h.cut? (by simp) hclose

theorem readings_value? {s t : Text} (h : Breaks s t) : Readings Breaks (value? s) (value? t) := by
  have hdouble : Unbroken ['"'] := by decide
  have hsingle : Unbroken ['\''] := by decide
  have hbrace : Unbroken ['\x7d'] := by decide
  rcases h.head_cases (c := '"') (by decide) (by decide) with ⟨s', t', rfl, rfl, h'⟩ | ⟨hs, ht⟩
  · exact readings_delimited h' hdouble
  rcases h.head_cases (c := '\'') (by decide) (by decide) with ⟨s', t', rfl, rfl, h'⟩ | ⟨hs', ht'⟩
  · exact readings_delimited h' hsingle
  rcases h.head_cases (c := '\x7b') (by decide) (by decide) with ⟨s', t', rfl, rfl, h'⟩ | ⟨hs'', ht''⟩
  · exact readings_delimited h' hbrace
  have heq : s.takeWhile isBareChar = t.takeWhile isBareChar := h.takeWhile_eq (by decide) (by decide)
  rw [value?_bare (by simpa using ⟨hs, hs', hs''⟩), value?_bare (by simpa using ⟨ht, ht', ht''⟩), heq]
  split
  · exact .none
  · exact .some ⟨.refl _, h.dropWhile (by decide)⟩

theorem readsThrough_attribute :
    ReadsThrough (fun p q : Text × Text => p.1 = q.1 ∧ Breaks p.2 q.2) attribute? := by
  intro s t h
  have hname : s.takeWhile isNameChar = t.takeWhile isNameChar := h.takeWhile_eq (by decide) (by decide)
  have hrest := (h.dropWhile (p := isNameChar) (by decide)).dropBlanks
  simp only [attribute?, hname]
  split
  · exact .none
  rcases hrest.head_cases (c := '=') (by decide) (by decide) with ⟨s', t', hs, ht, h⟩ | ⟨hs, ht⟩
  · rw [hs, ht]
    exact rel_bind (readings_value? h.dropBlanks) fun p q hpq => .some ⟨⟨rfl, hpq.1.strip⟩, hpq.2⟩
  · split
    · exact absurd ‹_› (hs _)
    · exact .none

theorem suffix_of_value? {t v rest : Text} (h : value? t = some (v, rest)) : rest <:+ t := by
  have hdelimited {close c : Char} {u : Text} (h : delimited close u = some (v, rest)) : rest <:+ c :: u := by
    rw [delimited] at h
    exact ⟨c :: (v ++ [close]), by rw [Text.cut?_eq_some h]; simp⟩
  by_cases hbare : ∀ c ∈ ['"', '\'', '\x7b'], ∀ u, t ≠ c :: u
  · rw [value?_bare hbare] at h
    split at h
    · cases h
    · obtain ⟨-, rfl⟩ : _ ∧ t.dropWhile isBareChar = rest := Prod.mk.inj (Option.some.inj h)
      exact List.dropWhile_suffix _
  · simp only [List.forall_mem_cons, not_and_or, not_forall, ne_eq, not_not] at hbare
    rcases hbare with ⟨u, rfl⟩ | ⟨u, rfl⟩ | ⟨u, rfl⟩ | hnil
    · exact hdelimited h
    · exact hdelimited h
    · exact hdelimited h
    · simp at hnil

theorem takes_attribute : Takes attribute? := by
  intro t a rest h
  simp only [attribute?] at h
  split at h
  · cases h
  · next hname =>
    split at h
    · next u hu =>
      obtain ⟨⟨v, r⟩, hv, he⟩ := Option.bind_eq_some_iff.1 h
      obtain rfl : r = rest := by simpa using congrArg Prod.snd (Option.some.inj he)
      have hvalue : r <:+ u := (suffix_of_value? hv).trans (List.dropWhile_suffix _)
      have hsign : u <:+ t.dropWhile isNameChar :=
        (List.suffix_cons '=' u).trans (hu ▸ List.dropWhile_suffix _)
      obtain ⟨x, hx⟩ := hvalue.trans hsign
      refine ⟨t.takeWhile isNameChar ++ x, fun hnil => hname ?_, ?_⟩
      · simpa using (List.append_eq_nil_iff.1 hnil).1
      · rw [List.append_assoc, hx, List.takeWhile_append_dropWhile]
    · cases h

theorem Restyled.parse {s t : Text} (h : Breaks s t) : (parse s).Restyled (parse t) :=
  Restyled.ofList (readsThrough_attribute.sideBySide takes_attribute h).found_related

end Attributes

/-! ## Components -/

namespace Element

variable {name : Text}

theorem unbroken_startTag (h : Unbroken name) : Unbroken (startTag name) := by
  simpa [startTag, Unbroken] using h

theorem unbroken_endTag (h : Unbroken name) : Unbroken (endTag name) := by
  simpa [endTag, Unbroken] using h

theorem readings_body? (h : Unbroken name) {s t : Text} (hst : Breaks s t) :
    Readings Breaks (body? name s) (body? name t) :=
  hst.cut? (List.cons_ne_nil _ _) (unbroken_endTag h)

theorem readsThrough_plain (h : Unbroken name) : ReadsThrough Breaks (plain? name) := by
  intro s t hst
  simp only [plain?]
  refine rel_bind (hst.after? (unbroken_startTag h)) fun s t hst => ?_
  rcases hst.dropBlanks.head_cases (c := '>') (by decide) (by decide) with ⟨s', t', hs, ht, hst⟩ | ⟨hs, ht⟩
  · rw [hs, ht]
    exact readings_body? h hst
  · split
    · exact absurd ‹_› (hs _)
    · exact .none

/-- Label and body differ in their breaks. -/
def Labelled.Restyled (e f : Labelled) : Prop := Breaks e.label f.label ∧ Breaks e.body f.body

theorem readsThrough_titled (h : Unbroken name) : ReadsThrough Labelled.Restyled (titled? name) := by
  intro s t hst
  simp only [titled?]
  refine rel_bind (hst.after? (unbroken_startTag h)) fun s t hst => ?_
  rw [hst.any_head (by decide)]
  split
  · exact .none
  refine rel_bind (hst.dropBlanks.after? (by decide)) fun s t hst => ?_
  refine rel_bind (hst.cut? (by decide) (by decide)) fun p q hpq => ?_
  rcases hpq.2.dropBlanks.head_cases (c := '>') (by decide) (by decide) with ⟨s', t', hs, ht, hst⟩ | ⟨hs, ht⟩
  · rw [hs, ht]
    exact rel_bind (readings_body? h hst) fun p' q' hpq' => .some ⟨⟨hpq.1, hpq'.1⟩, hpq'.2⟩
  · split
    · exact absurd ‹_› (hs _)
    · exact .none

theorem readsThrough_tagText (h : Unbroken name) : ReadsThrough Breaks (tagText? name) := by
  intro s t hst
  simp only [tagText?]
  refine rel_bind (hst.after? (unbroken_startTag h)) fun s t hst => ?_
  rw [hst.any_head (by decide)]
  split
  · exact .none
  · exact hst.cut? (by decide) (by decide)

/-- The attributes and the body differ in their breaks. -/
def Described.Restyled (e f : Described) : Prop := e.attributes.Restyled f.attributes ∧ Breaks e.body f.body

theorem readsThrough_described (h : Unbroken name) : ReadsThrough Described.Restyled (described? name) := by
  intro s t hst
  simp only [described?]
  refine rel_bind (readsThrough_tagText h s t hst) fun p q hpq => ?_
  exact rel_bind (readings_body? h hpq.2) fun p' q' hpq' => .some ⟨⟨.parse hpq.1, hpq'.1⟩, hpq'.2⟩

theorem readsThrough_single (h : Unbroken name) : ReadsThrough Attributes.Restyled (single? name) := by
  intro s t hst
  simp only [single?]
  refine rel_bind (readsThrough_tagText h s t hst) fun p q hpq => .some ⟨.parse ?_, hpq.2⟩
  rcases hpq.1.last_cases (c := '/') (by decide) (by decide) with ⟨s', t', hs, ht, hst⟩ | ⟨hs, ht⟩
  · simpa [hs, ht] using hst
  · simpa [hs, ht] using hpq.1

end Element

/-! ## Tags of the API reference -/

namespace Api

theorem endsName_eq {s t : Text} (h : Breaks s t) : endsName s = endsName t := by
  rcases h.cases_head with ⟨rfl, rfl⟩ | ⟨c, d, s', t', rfl, rfl, rfl | ⟨rfl, rfl | rfl⟩⟩
  · rfl
  · rfl
  · rfl
  · rfl

theorem rel_afterTag? {s t : Text} (h : Breaks s t) : Option.Rel Breaks (afterTag? s) (afterTag? t) :=
  rel_map (h.cut? (by decide) (by decide)) fun _ _ hpq => hpq.2

theorem rel_payloadStart? (c : Component) {s t : Text} (h : Breaks s t) :
    Option.Rel Breaks (payloadStart? c s) (payloadStart? c t) := by
  have hattr : Unbroken (c.attr ++ ['=', '\x7b']) := by cases c <;> decide
  simp only [payloadStart?]
  refine rel_bind (h.cut? (by simp) hattr) fun p q hpq => ?_
  rw [hpq.1.contains (c := '>') (by decide)]
  split
  · exact .none
  · exact .some hpq.2

theorem splitClosing_break (q : Quoting) (d : Int) {c : Char} (hc : c = '\n' ∨ c = '\r') (t : Text) :
    splitClosing q d (c :: t) = (splitClosing (q.next '\n') d t).map fun p => (c :: p.1, p.2) := by
  rcases hc with rfl | rfl <;> cases q <;> rfl

theorem readings_splitClosing {s t : Text} (h : Breaks s t) (q : Quoting) (d : Int) :
    Readings Breaks (splitClosing q d s) (splitClosing q d t) := by
  induction h generalizing q d with
  | nil => exact .none
  | @cons c s t h ih =>
    simp only [splitClosing]
    split
    · exact .some ⟨.nil, h⟩
    · exact rel_map (ih _ _) fun p p' hp => ⟨hp.1.cons c, hp.2⟩
  | @turn w hw s t h ih =>
    have hstay (q : Quoting) : (q.next '\n').next '\n' = q.next '\n' := by cases q <;> rfl
    have hright : splitClosing q d (w ++ t) = (splitClosing (q.next '\n') d t).map fun p => (w ++ p.1, p.2) := by
      rcases Breaks.style_cases hw with rfl | rfl | rfl
      · rw [List.cons_append, splitClosing_break q d (.inr rfl), List.singleton_append,
          splitClosing_break _ d (.inl rfl), Option.map_map, hstay]
        rfl
      · rw [List.cons_append, splitClosing_break q d (.inl rfl), List.singleton_append,
          splitClosing_break _ d (.inr rfl), Option.map_map, hstay]
        rfl
      · exact splitClosing_break q d (.inr rfl) t
    rw [splitClosing_break q d (.inl rfl), hright]
    exact rel_map (ih _ d) fun p p' hp => ⟨.turn hw hp.1, hp.2⟩

/-- Occurrences of one kind whose payloads differ in their breaks. -/
inductive Occurrence.Restyled : Occurrence → Occurrence → Prop where
  | bare : Restyled .bare .bare
  | unclosed : Restyled .unclosed .unclosed
  | payload {raw raw' : Text} (h : Breaks raw raw') : Restyled (.payload raw) (.payload raw')

theorem getD_afterTag? {s t u v : Text} (h : Breaks s t) (huv : Breaks u v) :
    Breaks ((afterTag? s).getD u) ((afterTag? t).getD v) := by
  have hrel := rel_afterTag? h
  cases hs : afterTag? s with
  | none =>
    rw [hs] at hrel
    rw [(rel_none_iff hrel).1 rfl]
    exact huv
  | some x =>
    rw [hs] at hrel
    obtain ⟨y, hy, hxy⟩ := rel_some hrel
    rw [hy]
    exact hxy

theorem readsThrough_occurrence (c : Component) : ReadsThrough Occurrence.Restyled (occurrence? c) := by
  have htag : Unbroken ('<' :: c.tag) := by cases c <;> decide
  intro s t h
  simp only [occurrence?]
  refine rel_bind (h.after? htag) fun s t h => ?_
  rw [endsName_eq h]
  split
  · exact .none
  have hstart := rel_payloadStart? c h
  cases hs : payloadStart? c s with
  | none =>
    rw [hs] at hstart
    rw [(rel_none_iff hstart).1 rfl]
    exact .some ⟨.bare, getD_afterTag? h .nil⟩
  | some body =>
    rw [hs] at hstart
    obtain ⟨body', hs', hbody⟩ := rel_some hstart
    rw [hs']
    dsimp only
    have hclosing := readings_splitClosing hbody .outside 1
    cases hb : splitClosing .outside 1 body with
    | none =>
      rw [hb] at hclosing
      rw [(rel_none_iff hclosing).1 rfl]
      exact .some ⟨.unclosed, h⟩
    | some p =>
      rw [hb] at hclosing
      obtain ⟨p', hp', hraw, hrest⟩ := rel_some hclosing
      rw [hp']
      exact .some ⟨.payload hraw, getD_afterTag? hrest hrest⟩

theorem payload?_of_breaks {s t : Text} (h : Breaks s t) : payload? s = payload? t := by
  have hbraced : Breaks ('\x7b' :: s ++ ['\x7d']) ('\x7b' :: t ++ ['\x7d']) := (h.cons '\x7b').append (.refl _)
  rw [payload?, payload?, Json.parse?_of_breaks h, Json.parse?_of_breaks hbraced]

theorem rel_cutLast? {sep s t : Text} (hne : sep ≠ []) (hsep : Unbroken sep) (h : Breaks s t) :
    Readings Breaks (cutLast? sep s) (cutLast? sep t) :=
  rel_map (h.reverse.cut? (by simpa using hne) (by simpa [Unbroken] using hsep)) fun _ _ hpq =>
    ⟨hpq.2.reverse, hpq.1.reverse⟩

/-- The section of the request stands at the same place, under the same id. -/
theorem breaks_wrapRequest {s t : Text} (h : Breaks s t) (ids : IdSupply) :
    Breaks ((wrapRequest s).run ids).1 ((wrapRequest t).run ids).1 ∧
      ((wrapRequest s).run ids).2 = ((wrapRequest t).run ids).2 := by
  have hcut : Readings Breaks (Text.cut? requestMark s) (Text.cut? requestMark t) := h.cut? (by decide) (by decide)
  cases hs : Text.cut? requestMark s with
  | none =>
    rw [hs] at hcut
    rw [wrapRequest, hs, wrapRequest, (rel_none_iff hcut).1 rfl]
    exact ⟨h, rfl⟩
  | some p =>
    rw [hs] at hcut
    obtain ⟨q, ht, hbefore, hrest⟩ := rel_some hcut
    have hlast : Breaks ((cutLast? requestMark p.2).getD ([], p.2)).1 ((cutLast? requestMark q.2).getD ([], q.2)).1 ∧
        Breaks ((cutLast? requestMark p.2).getD ([], p.2)).2 ((cutLast? requestMark q.2).getD ([], q.2)).2 := by
      have hrel : Readings Breaks (cutLast? requestMark p.2) (cutLast? requestMark q.2) :=
        rel_cutLast? (by decide) (by decide) hrest
      cases hp : cutLast? requestMark p.2 with
      | none =>
        rw [hp] at hrel
        rw [(rel_none_iff hrel).1 rfl]
        exact ⟨.nil, hrest⟩
      | some x =>
        rw [hp] at hrel
        obtain ⟨y, hy, hxy⟩ := rel_some hrel
        rw [hy]
        exact hxy
    have hinner : Breaks (Text.replace requestMark [] ((cutLast? requestMark p.2).getD ([], p.2)).1)
        (Text.replace requestMark [] ((cutLast? requestMark q.2).getD ([], q.2)).1) :=
      hlast.1.replace (by decide) (by decide) .nil
    rw [wrapRequest, hs, wrapRequest, ht]
    refine ⟨?_, rfl⟩
    exact (((((hbefore.append (.refl _)).append (.refl _)).append (.refl _)).append hinner).append (.refl _)).append
      hlast.2

end Api

/-! ## Media addresses -/

namespace Media

/-- References whose parts differ in their breaks. -/
structure Reference.Restyled (r q : Reference) : Prop where
  before : Breaks r.before q.before
  url : Breaks r.url q.url
  after : Breaks r.after q.after

variable {root : Text}

theorem readings_path? (hroot : Unbroken root) {isChar : Char → Bool} (hchar : BreakBlind isChar) {s t : Text}
    (h : Breaks s t) : Readings Breaks (path? root isChar s) (path? root isChar t) := by
  simp only [path?]
  refine rel_bind (h.after? hroot) fun s t h => ?_
  have hpath := h.takeWhile hchar
  rw [hpath.isEmpty]
  split
  · exact .none
  · exact .some ⟨(Breaks.refl root).append hpath, h.dropWhile hchar⟩

theorem readsThrough_image (hroot : Unbroken root) : ReadsThrough Reference.Restyled (image? root) := by
  intro s t h
  simp only [image?]
  refine rel_bind (h.after? (by decide)) fun s t h => ?_
  refine rel_bind (h.cut? (by decide) (by decide)) fun p q hpq => ?_
  rcases hpq.2.head_cases (c := '(') (by decide) (by decide) with ⟨s', t', hs, ht, h⟩ | ⟨hs, ht⟩
  · rw [hs, ht]
    refine rel_bind (readings_path? hroot (by decide) h) fun u v huv => ?_
    refine rel_bind (huv.2.cut? (by decide) (by decide)) fun x y hxy => .some ⟨⟨?_, huv.1, ?_⟩, hxy.2⟩
    · exact ((Breaks.refl _).append hpq.1).append (.refl _)
    · exact hxy.1.append (.refl _)
  · split
    · exact absurd ‹_› (hs _)
    · exact .none

theorem readings_source? (hroot : Unbroken root) {s t : Text} (h : Breaks s t) :
    Readings Reference.Restyled (source? root s) (source? root t) := by
  simp only [source?]
  refine rel_bind (h.after? (by decide)) fun s t h => ?_
  cases h with
  | nil => exact .none
  | @cons q s t h =>
    dsimp only
    split
    · exact .none
    have hblind : BreakBlind (!isQuote ·) := by decide
    have hpath := readings_path? hroot hblind h
    cases hs : path? root (!isQuote ·) s with
    | none =>
      rw [hs] at hpath
      rw [(rel_none_iff hpath).1 rfl]
      exact .none
    | some p =>
      obtain ⟨url, rest⟩ := p
      rw [hs] at hpath
      obtain ⟨⟨url', rest'⟩, ht, hurl, hrest⟩ := rel_some hpath
      have hquote := isQuote_of_path? hs
      rw [ht]
      simp only [Option.bind_eq_bind, Option.bind_some]
      cases hrest with
      | nil => exact .none
      | cons d hrest => exact .some ⟨⟨.refl _, hurl, .refl _⟩, hrest⟩
      | turn => exact absurd (hquote '\n' rfl) (by decide)
  | turn hw h =>
    rcases Breaks.style_cases hw with rfl | rfl | rfl <;> exact .none

theorem source?_break {c : Char} (hc : c = '\n' ∨ c = '\r') (t : Text) : source? root (c :: t) = none := by
  simp only [source?]
  rw [Breaks.after?_break hc (by decide) (by decide)]
  rfl

theorem lastSource?_break {c : Char} (hc : c = '\n' ∨ c = '\r') (t : Text) :
    lastSource? root (c :: t) =
      (lastSource? root t).map fun p => ({ p.1 with before := c :: p.1.before }, p.2) := by
  have hne : c ≠ '>' := by rcases hc with rfl | rfl <;> decide
  simp only [lastSource?, source?_break hc, if_neg hne, Option.or_none]

theorem readings_lastSource? (hroot : Unbroken root) {s t : Text} (h : Breaks s t) :
    Readings Reference.Restyled (lastSource? root s) (lastSource? root t) := by
  induction h with
  | nil => exact .none
  | @cons c s t h ih =>
    simp only [lastSource?]
    refine rel_or ?_ (readings_source? hroot (h.cons c))
    split
    · exact .none
    · exact rel_map ih fun p q hpq => ⟨⟨hpq.1.before.cons c, hpq.1.url, hpq.1.after⟩, hpq.2⟩
  | @turn w hw s t h ih =>
    have hright : lastSource? root (w ++ t) =
        (lastSource? root t).map fun p => ({ p.1 with before := w ++ p.1.before }, p.2) := by
      rcases Breaks.style_cases hw with rfl | rfl | rfl
      · rw [List.cons_append, lastSource?_break (.inr rfl), List.singleton_append, lastSource?_break (.inl rfl),
          Option.map_map]
        rfl
      · rw [List.cons_append, lastSource?_break (.inl rfl), List.singleton_append, lastSource?_break (.inr rfl),
          Option.map_map]
        rfl
      · exact lastSource?_break (.inr rfl) t
    rw [lastSource?_break (.inl rfl), hright]
    exact rel_map ih fun p q hpq => ⟨⟨.turn hw hpq.1.before, hpq.1.url, hpq.1.after⟩, hpq.2⟩

theorem readsThrough_imageTag (hroot : Unbroken root) : ReadsThrough Reference.Restyled (imageTag? root) := by
  intro s t h
  simp only [imageTag?]
  refine rel_bind (h.after? (by decide)) fun s t h => ?_
  cases h with
  | nil => exact .none
  | @cons c s t h =>
    dsimp only
    split
    · exact .none
    · exact rel_bind (readings_lastSource? hroot h) fun p q hpq =>
        .some ⟨⟨(Breaks.refl _).append (hpq.1.before.cons c), hpq.1.url, hpq.1.after⟩, hpq.2⟩
  | @turn w hw s t h =>
    -- The blank behind the name may be a break; what is more of it in the other text stands in front of the attributes.
    have hn : isBlank '\n' = true := by decide
    have hr : isBlank '\r' = true := by decide
    have hlater := readings_lastSource? hroot h
    have hfront {b b' : Text} (hb : Breaks b b') : Breaks ("<img" ++ '\n' :: b) ("<img" ++ (w ++ b')) :=
      (Breaks.refl _).append (.turn hw hb)
    rcases Breaks.style_cases hw with rfl | rfl | rfl
    · simp only [List.cons_append, List.nil_append, hn, hr, lastSource?_break (.inl rfl)]
      generalize lastSource? root s = x at hlater ⊢
      generalize lastSource? root t = y at hlater ⊢
      cases hlater with
      | none => exact .none
      | some hpq => exact .some ⟨⟨hfront hpq.1.before, hpq.1.url, hpq.1.after⟩, hpq.2⟩
    · simp only [List.cons_append, List.nil_append, hn, lastSource?_break (.inr rfl)]
      generalize lastSource? root s = x at hlater ⊢
      generalize lastSource? root t = y at hlater ⊢
      cases hlater with
      | none => exact .none
      | some hpq => exact .some ⟨⟨hfront hpq.1.before, hpq.1.url, hpq.1.after⟩, hpq.2⟩
    · simp only [List.cons_append, List.nil_append, hn, hr]
      generalize lastSource? root s = x at hlater ⊢
      generalize lastSource? root t = y at hlater ⊢
      cases hlater with
      | none => exact .none
      | some hpq => exact .some ⟨⟨hfront hpq.1.before, hpq.1.url, hpq.1.after⟩, hpq.2⟩

theorem breaks_resolveAll (hroot : Unbroken root) {resolve : Text → Text}
    (hresolve : ∀ s t, Breaks s t → Breaks (resolve s) (resolve t)) {s t : Text} (h : Breaks s t) :
    Breaks (resolveAll root resolve s) (resolveAll root resolve t) := by
  have hwrite (r q : Reference) (hrq : r.Restyled q) :
      Breaks (r.before ++ resolve r.url ++ r.after) (q.before ++ resolve q.url ++ q.after) :=
    (hrq.before.append (hresolve _ _ hrq.url)).append hrq.after
  have himage := ((readsThrough_image hroot).sideBySide takes_image h).mapFound hwrite
  exact ((readsThrough_imageTag hroot).sideBySide takes_imageTag himage).mapFound hwrite

end Media

/-- Media paths are resolved alike. -/
theorem breaks_resolveMedia (cmsUrl : Text) {mediaRoot s t : Text} (hroot : Unbroken mediaRoot) (h : Breaks s t) :
    Breaks (resolveMedia cmsUrl mediaRoot s) (resolveMedia cmsUrl mediaRoot t) := by
  have hurl := h.strip
  have hword := hurl.lower
  have hnone : (Text.strip s).isEmpty ∨ Text.lower (Text.strip s) = "null" ∨ Text.lower (Text.strip s) = "undefined" ↔
      (Text.strip t).isEmpty ∨ Text.lower (Text.strip t) = "null" ∨ Text.lower (Text.strip t) = "undefined" := by
    rw [hurl.isEmpty, hword.eq_iff (by decide), hword.eq_iff (by decide)]
  have hstarts : Text.startsWith (Text.strip s) mediaRoot = Text.startsWith (Text.strip t) mediaRoot := by
    have hrel := hurl.after? hroot
    unfold Text.startsWith
    cases hs : Text.after? mediaRoot (Text.strip s) with
    | none =>
      rw [hs] at hrel
      rw [(rel_none_iff hrel).1 rfl]
    | some u =>
      rw [hs] at hrel
      obtain ⟨v, hv, -⟩ := rel_some hrel
      rw [hv]
      rfl
  simp only [resolveMedia, hnone, hstarts]
  split
  · exact .nil
  · split
    · exact (Breaks.refl _).append hurl
    · exact hurl

end DocPages
