import DocPages.Proofs.Api.Balance
import DocPages.Proofs.Api.Nested
import DocPages.Proofs.Page.Anatomy
import DocPages.Proofs.Text.Occurrences

/-!
# The turns of the search for tags

The tags of a kind can be replaced by a loop over an index into the text: a turn looks for the next tag name, keeps
the text in front of it, replaces what the name begins and sets the index behind that. Each turn moves the index
forward within the text and leaves one tag name less behind it, however malformed the tags are, so the loop ends,
and it makes of the text what `placeAll` does.
-/

namespace DocPages

namespace Text

/-- The index of the first occurrence of a part that does not begin before `start`. -/
def position? (part t : Text) (start : Nat) : Option Nat :=
  (cut? part (t.drop start)).map fun p => start + p.1.length

section
variable {s t before rest name : Text} {i : Nat}

theorem length_of_drop (hi : i ≤ t.length) (h : t.drop i = s) : i + s.length = t.length := by
  rw [← h, List.length_drop]
  omega

theorem drop_behind (h : t.drop i = before ++ rest) : t.drop (i + before.length) = rest := by
  rw [← List.drop_drop, h, List.drop_left]

theorem extract_before (h : t.drop i = before ++ rest) : t.extract i (i + before.length) = before := by
  rw [List.extract_eq_take_drop, h, Nat.add_sub_cancel_left, List.take_left]

/-- The end of a text, by the index at which it begins. -/
theorem drop_of_suffix (h : s <:+ t) : t.drop (t.length - s.length) = s :=
  (List.suffix_iff_eq_drop.1 h).symm

theorem suffix_of_cut? {part : Text} (h : cut? part (t.drop i) = some (before, rest)) : rest <:+ t := by
  refine List.IsSuffix.trans ⟨before ++ part, ?_⟩ (List.drop_suffix i t)
  rw [cut?_eq_some h, List.append_assoc]

/-- A cut at one character goes in front of another place if and only if the character stands there. -/
theorem length_lt_iff_mem {c : Char} {x y : Text} (h : cut? [c] (s ++ t) = some (x, y)) :
    x.length < s.length ↔ c ∈ s := by
  have hx := notMem_of_cut? h
  rcases List.append_eq_append_iff.1 (cut?_eq_some h) with ⟨m, rfl, -⟩ | ⟨m, rfl, hm⟩
  · refine iff_of_false (by simp) fun hc => hx ?_
    exact List.mem_append_left m hc
  · cases m with
    | nil => exact iff_of_false (by simp) fun hc => hx (by simpa using hc)
    | cons d m =>
      obtain ⟨rfl, -⟩ := List.cons.inj hm
      exact iff_of_true (by simp) (by simp)

theorem occurrences_front (name rest : Text) :
    occurrences ('<' :: name) ('<' :: (name ++ rest)) = occurrences ('<' :: name) rest + 1 := by
  have hfront : literal ('<' :: name) ('<' :: name ++ rest) = some ((), rest) := by rw [literal, after?_append]; rfl
  have hfound := congrArg List.length (found_front (List.cons_ne_nil '<' name) hfront)
  exact hfound

theorem occurrences_tail_le (hname : '<' ∉ name) (a : Char) :
    occurrences ('<' :: name) t ≤ occurrences ('<' :: name) (a :: t) := by
  cases hr : literal ('<' :: name) (a :: t) with
  | none => rw [occurrences, occurrences, found_kept hr]
  | some p =>
    obtain ⟨u, hu, -⟩ := Option.map_eq_some_iff.1 hr
    have hfront : a :: t = '<' :: (name ++ u) := eq_append_of_after? hu
    obtain ⟨rfl, rfl⟩ := List.cons.inj hfront
    rw [occurrences_front, occurrences_append (by simp) (severed_of_notMem hname name), occurrences_of_notMem hname]
    omega

/-- The end of a text holds no more tag names than the text. -/
theorem occurrences_suffix_le (hname : '<' ∉ name) (h : s <:+ t) :
    occurrences ('<' :: name) s ≤ occurrences ('<' :: name) t := by
  obtain ⟨a, rfl⟩ := h
  induction a with
  | nil => exact Nat.le_refl _
  | cons c a ih => exact ih.trans (occurrences_tail_le hname c)

theorem occurrences_of_cut? (hname : '<' ∉ name) (h : cut? ('<' :: name) t = some (before, rest)) :
    occurrences ('<' :: name) rest < occurrences ('<' :: name) t := by
  have ht : t = before ++ '<' :: (name ++ rest) := cut?_eq_some h
  have hle := occurrences_suffix_le hname (List.suffix_append before ('<' :: (name ++ rest)))
  rw [occurrences_front] at hle
  rw [ht]
  omega

end

end Text

namespace Api

/-- What a turn does: the text is kept up to an index, what was found behind it is replaced, and the search goes on. -/
structure Turn where
  keep : Nat
  found : Option Occurrence
  next : Nat
  deriving DecidableEq

/-- The index behind the first bracket that does not stand before `start`. -/
def behindBracket? (t : Text) (start : Nat) : Option Nat := (Text.position? ['>'] t start).map (· + 1)

/-- The index of the opening brace of a payload, unless the tag ends before it. -/
def brace? (c : Component) (t : Text) (start : Nat) : Option Nat :=
  match Text.position? (c.attr ++ ['=', '\x7b']) t start with
  | none => none
  | some attrAt => if (Text.position? ['>'] t start).any (· < attrAt) then none else some (attrAt + c.attr.length + 1)

/-- The turn at a tag name that begins at `start`. -/
def turnAt (c : Component) (t : Text) (start : Nat) : Turn :=
  let nameEnd := start + (openTag c).length
  if endsName (t.drop nameEnd) then
    match brace? c t nameEnd with
    | none => ⟨start, some .bare, (behindBracket? t nameEnd).getD t.length⟩
    | some brace =>
      match closingBrace? t brace with
      | none => ⟨start, some .unclosed, nameEnd⟩
      | some close =>
        ⟨start, some (.payload (t.extract (brace + 1) close)), (behindBracket? t close).getD (close + 1)⟩
  else ⟨nameEnd, none, nameEnd⟩

/-- The turn from an index on; the loop stops if no tag name follows. -/
def turn? (c : Component) (t : Text) (pos : Nat) : Option Turn := (Text.position? (openTag c) t pos).map (turnAt c t)

def Turn.write (maxDepth : Int) (c : Component) (turn : Turn) : StateM Work Text :=
  turn.found.elim (pure []) (place maxDepth c)

/-- The loop from an index on with so many turns left; nothing is returned if they run out. -/
def loop (maxDepth : Int) (c : Component) (t : Text) : (turns : Nat) → (pos : Nat) → StateM Work (Option Text)
  | 0, _ => return none
  | turns + 1, pos =>
    match turn? c t pos with
    | none => return some (t.drop pos)
    | some turn => do
      let x ← turn.write maxDepth c
      let y ← loop maxDepth c t turns turn.next
      return y.map fun y => t.extract pos turn.keep ++ x ++ y

/-! ## What a turn finds -/

section
variable {c : Component} {t rest : Text} {start : Nat}

theorem behindBracket?_eq (h : start ≤ t.length) :
    behindBracket? t start = (afterTag? (t.drop start)).map fun r => t.length - r.length := by
  rw [behindBracket?, Text.position?, afterTag?, Option.map_map, Option.map_map]
  cases hcut : Text.cut? ">" (t.drop start) with
  | none =>
    have hcut : Text.cut? ['>'] (t.drop start) = none := hcut
    rw [hcut]
    rfl
  | some p =>
    have hcut : Text.cut? ['>'] (t.drop start) = some p := hcut
    have hlength := congrArg List.length (Text.cut?_eq_some hcut)
    rw [List.length_drop, List.length_append, List.length_append, List.length_singleton] at hlength
    rw [hcut]
    simp only [Option.map_some, Function.comp_apply, Option.some.injEq]
    omega

theorem brace?_eq_none (h : payloadStart? c (t.drop start) = none) : brace? c t start = none := by
  rw [payloadStart?] at h
  rw [brace?, Text.position?]
  cases hcut : Text.cut? (c.attr ++ ['=', '\x7b']) (t.drop start) with
  | none => rfl
  | some p =>
    rw [hcut] at h
    have hmem : '>' ∈ p.1 := by simpa using h
    have hdrop := Text.cut?_eq_some hcut
    -- A bracket in front of the attribute is found, and no later than there.
    cases hbracket : Text.cut? ['>'] (t.drop start) with
    | none =>
      refine absurd ?_ (Text.cut?_eq_none_iff.1 hbracket)
      rw [List.singleton_infix_iff, hdrop]
      exact List.mem_append_left _ hmem
    | some q =>
      have hlt := (Text.length_lt_iff_mem (hdrop ▸ hbracket)).2 hmem
      simp [Text.position?, hbracket, hlt]

theorem brace?_eq_some {body : Text} (h : payloadStart? c (t.drop start) = some body) :
    ∃ brace, brace? c t start = some brace ∧ t.drop brace = '\x7b' :: body := by
  rw [payloadStart?] at h
  rw [brace?, Text.position?]
  cases hcut : Text.cut? (c.attr ++ ['=', '\x7b']) (t.drop start) with
  | none => simp [hcut] at h
  | some p =>
    have hdrop := Text.cut?_eq_some hcut
    obtain ⟨hmem, rfl⟩ : '>' ∉ p.1 ∧ p.2 = body := by simpa [hcut] using h
    have hnot : ((Text.position? ['>'] t start).any (· < start + p.1.length)) = false := by
      cases hbracket : Text.cut? ['>'] (t.drop start) with
      | none => simp [Text.position?, hbracket]
      | some q =>
        have hle := mt (Text.length_lt_iff_mem (hdrop ▸ hbracket)).1 hmem
        simp [Text.position?, hbracket]
        omega
    refine ⟨start + p.1.length + c.attr.length + 1, by simp [hnot], ?_⟩
    have hbrace : t.drop start = (p.1 ++ (c.attr ++ ['='])) ++ '\x7b' :: p.2 := by rw [hdrop]; simp
    have hbehind := Text.drop_behind hbrace
    rw [List.length_append, List.length_append, List.length_singleton] at hbehind
    rw [← hbehind]
    congr 1
    omega

/-- At a tag name that goes on, the name is kept. -/
theorem turnAt_longer (h : t.drop start = openTag c ++ rest) (hname : endsName rest = false) :
    turnAt c t start = ⟨start + (openTag c).length, none, start + (openTag c).length⟩ := by
  simp [turnAt, Text.drop_behind h, hname]

theorem afterTag?_brace (t : Text) : afterTag? ('\x7d' :: t) = afterTag? t := by
  have hcut : Text.cut? ['>'] ('\x7d' :: t) = (Text.cut? ['>'] t).map fun p => ('\x7d' :: p.1, p.2) := rfl
  change (Text.cut? ['>'] ('\x7d' :: t)).map Prod.snd = (Text.cut? ['>'] t).map Prod.snd
  rw [hcut, Option.map_map]
  rfl

section
variable (hrest : t.drop (start + (openTag c).length) = rest) (hname : endsName rest = true)
include hrest hname

theorem turnAt_bare (hnone : payloadStart? c rest = none) (hend : start + (openTag c).length ≤ t.length) :
    turnAt c t start = ⟨start, some .bare, ((afterTag? rest).map fun r => t.length - r.length).getD t.length⟩ := by
  have hbrace := brace?_eq_none (hrest.symm ▸ hnone)
  have hbracket := behindBracket?_eq hend
  rw [hrest] at hbracket
  simp only [turnAt, hrest, hname, hbrace, hbracket, if_true]

theorem turnAt_unclosed {body : Text} (hstart : payloadStart? c rest = some body)
    (hopen : splitClosing .outside 1 body = none) :
    turnAt c t start = ⟨start, some .unclosed, start + (openTag c).length⟩ := by
  obtain ⟨brace, hbrace, hbody⟩ := brace?_eq_some (hrest.symm ▸ hstart)
  have hclosing := closingBrace?_eq hbody
  rw [hopen] at hclosing
  simp only [turnAt, hrest, hname, hbrace, hclosing, if_true, Option.map_none]

/-- Behind the payload the search for the end of the tag begins at the closing brace, which is none. -/
theorem turnAt_payload {body raw more : Text} (hstart : payloadStart? c rest = some body)
    (hclosed : splitClosing .outside 1 body = some (raw, more)) :
    turnAt c t start = ⟨start, some (.payload raw), t.length - ((afterTag? more).getD more).length⟩ := by
  obtain ⟨brace, hbrace, hbody⟩ := brace?_eq_some (hrest.symm ▸ hstart)
  have hclosing := closingBrace?_eq hbody
  have hinside : t.drop (brace + 1) = raw ++ '\x7d' :: more := by
    have hbrace : t.drop brace = ['\x7b'] ++ body := hbody
    rw [← eq_of_splitClosing hclosed]
    exact Text.drop_behind hbrace
  have hbehind := Text.drop_behind hinside
  have hlength := congrArg List.length hbehind
  rw [List.length_drop, List.length_cons] at hlength
  have hbracket : behindBracket? t (brace + 1 + raw.length) = _ := behindBracket?_eq (by omega)
  rw [hbehind, afterTag?_brace] at hbracket
  rw [hclosed] at hclosing
  simp only [turnAt, hrest, hname, hbrace, hclosing, if_true, Option.map_some, Text.extract_before hinside, hbracket]
  congr 1
  cases afterTag? more with
  | none => simp; omega
  | some r => rfl

end

/-- At the name of a tag, what is read is replaced and the index is set where the reader ends. -/
theorem turnAt_tag (h : t.drop start = openTag c ++ rest) (hname : endsName rest = true) :
    ∃ o rest', occurrence? c (openTag c ++ rest) = some (o, rest') ∧
      turnAt c t start = ⟨start, some o, t.length - rest'.length⟩ := by
  have hstart : start ≤ t.length := by
    refine Nat.le_of_lt (Nat.lt_of_not_le fun hle => ?_)
    rw [List.drop_eq_nil_of_le hle] at h
    cases h
  have hrest := Text.drop_behind h
  have hnameEnd : start + (openTag c).length + rest.length = t.length := by
    have hlength := Text.length_of_drop hstart h
    rw [List.length_append] at hlength
    omega
  obtain ⟨⟨o, rest'⟩, hread⟩ := Option.isSome_iff_exists.1 (occurrence?_append (c := c) hname)
  refine ⟨o, rest', hread, ?_⟩
  obtain ⟨s, hs, -, hcase⟩ := occurrence?_eq_some hread
  obtain rfl : rest = s := List.append_cancel_left hs
  rcases hcase with ⟨rfl, hnone, rfl⟩ | ⟨body, hstart, ⟨rfl, hopen, rfl⟩ | ⟨raw, more, rfl, hclosed, rfl⟩⟩
  · rw [turnAt_bare hrest hname hnone (by omega)]
    cases afterTag? rest <;> rfl
  · rw [turnAt_unclosed hrest hname hstart hopen]
    congr 1
    omega
  · exact turnAt_payload hrest hname hstart hclosed

/-- What a turn from an index on does. -/
inductive Turned (c : Component) (t : Text) (pos : Nat) : Turn → Prop where
  | longer {before rest : Text} (hcut : Text.cut? (openTag c) (t.drop pos) = some (before, rest))
      (hname : endsName rest = false) :
      Turned c t pos ⟨pos + (before ++ openTag c).length, none, t.length - rest.length⟩
  | tag {before rest rest' : Text} {o : Occurrence} (hcut : Text.cut? (openTag c) (t.drop pos) = some (before, rest))
      (hread : occurrence? c (openTag c ++ rest) = some (o, rest')) :
      Turned c t pos ⟨pos + before.length, some o, t.length - rest'.length⟩

theorem turned {pos : Nat} {turn : Turn} (h : turn? c t pos = some turn) : Turned c t pos turn := by
  obtain ⟨start, hstart, rfl⟩ := Option.map_eq_some_iff.1 h
  obtain ⟨⟨before, rest⟩, hcut, rfl⟩ := Option.map_eq_some_iff.1 hstart
  have hdrop := Text.drop_behind (Text.cut?_eq_some hcut)
  cases hname : endsName rest with
  | true =>
    obtain ⟨o, rest', hread, hturn⟩ := turnAt_tag hdrop hname
    rw [hturn]
    exact .tag hcut hread
  | false =>
    have hlength := congrArg List.length (Text.cut?_eq_some hcut)
    rw [List.length_drop, List.length_append, List.length_append] at hlength
    have hpos : 0 < (openTag c).length := Nat.succ_pos _
    have hnext : pos + before.length + (openTag c).length = t.length - rest.length := by omega
    have hturn := Turned.longer hcut hname
    rw [List.length_append, ← Nat.add_assoc] at hturn
    rw [turnAt_longer hdrop hname]
    exact hnext ▸ hturn

end

/-! ## The loop moves on -/

section
variable {c : Component} {t : Text} {pos : Nat} {turn : Turn}

/-- What a turn leaves is an end of what follows the next tag name. -/
theorem Turned.suffix (h : Turned c t pos turn) :
    ∃ before rest, Text.cut? (openTag c) (t.drop pos) = some (before, rest) ∧ t.drop turn.next <:+ rest ∧
      turn.next ≤ t.length := by
  cases h with
  | longer hcut hname =>
    refine ⟨_, _, hcut, ?_, Nat.sub_le _ _⟩
    rw [Text.drop_of_suffix (Text.suffix_of_cut? hcut)]
  | tag hcut hread =>
    obtain ⟨s, hs, hsuffix⟩ := suffix_of_occurrence? hread
    obtain rfl := List.append_cancel_left hs
    refine ⟨_, _, hcut, ?_, Nat.sub_le _ _⟩
    rw [Text.drop_of_suffix (hsuffix.trans (Text.suffix_of_cut? hcut))]
    exact hsuffix

theorem turn_advances (h : turn? c t pos = some turn) : pos < turn.next ∧ turn.next ≤ t.length := by
  obtain ⟨before, rest, hcut, hsuffix, hnext⟩ := (turned h).suffix
  refine ⟨?_, hnext⟩
  have hlength := congrArg List.length (Text.cut?_eq_some hcut)
  have hle := hsuffix.length_le
  have hpos : 0 < (openTag c).length := Nat.succ_pos _
  rw [List.length_append, List.length_append, List.length_drop] at hlength
  rw [List.length_drop] at hle
  omega

theorem lt_notMem_tag (c : Component) : '<' ∉ c.tag := notMem_tag (by decide) c

/-- A turn leaves one tag name less. -/
theorem occurrences_turn (h : turn? c t pos = some turn) :
    Text.occurrences (openTag c) (t.drop turn.next) < Text.occurrences (openTag c) (t.drop pos) := by
  obtain ⟨before, rest, hcut, hsuffix, -⟩ := (turned h).suffix
  have hle := Text.occurrences_suffix_le (lt_notMem_tag c) hsuffix
  exact Nat.lt_of_le_of_lt hle (Text.occurrences_of_cut? (lt_notMem_tag c) hcut)

/-! ## What the loop makes of the text -/

theorem placeAll_stop (maxDepth : Int) (h : turn? c t pos = none) :
    placeAll maxDepth c (t.drop pos) = pure (t.drop pos) := by
  have hcut : Text.cut? (openTag c) (t.drop pos) = none := by simpa [turn?, Text.position?] using h
  exact Text.mapFoundM_of_refused (refused_of_clear (Text.clear_of_absent (Text.cut?_eq_none_iff.1 hcut)))

theorem refused_longer {rest : Text} (hname : endsName rest = false) : Refused (occurrence? c) (openTag c) rest := by
  have hfirst : occurrence? c (openTag c ++ rest) = none := by
    refine occurrence?_eq_none_iff.2 fun s hs => ?_
    rwa [← List.append_cancel_left hs]
  have hrest : Text.Clear (openTag c) c.tag rest := Text.clear_of_notMem (lt_notMem_tag c) rest
  exact Refused.cons hfirst (refused_of_clear hrest)

/-- What the turn keeps and writes, and then what becomes of the rest. -/
theorem placeAll_turn (maxDepth : Int) (h : turn? c t pos = some turn) :
    placeAll maxDepth c (t.drop pos) = do
      let x ← turn.write maxDepth c
      let y ← placeAll maxDepth c (t.drop turn.next)
      return t.extract pos turn.keep ++ x ++ y := by
  have hrefused {before rest : Text} (hcut : Text.cut? (openTag c) (t.drop pos) = some (before, rest)) :
      Refused (occurrence? c) before (openTag c ++ rest) := refused_of_clear (Text.clear_of_cut? hcut)
  cases turned h with
  | @longer before rest hcut hname =>
    have hdrop : t.drop pos = (before ++ openTag c) ++ rest := by rw [Text.cut?_eq_some hcut, List.append_assoc]
    have hkept := Text.extract_before hdrop
    rw [Text.drop_of_suffix (Text.suffix_of_cut? hcut), hkept, hdrop, placeAll,
      Text.mapFoundM_append ((hrefused hcut).append (refused_longer hname))]
    simp [Turn.write, placeAll]
  | @tag before rest rest' o hcut hread =>
    have hkept := Text.extract_before (Text.cut?_eq_some hcut)
    obtain ⟨s, hs, hsuffix⟩ := suffix_of_occurrence? hread
    obtain rfl := List.append_cancel_left hs
    obtain ⟨u, hu⟩ := takes_occurrence c _ _ _ hread
    rw [Text.drop_of_suffix (hsuffix.trans (Text.suffix_of_cut? hcut)), hkept, Text.cut?_eq_some hcut, placeAll,
      Text.mapFoundM_append (hrefused hcut), hu.2, Text.mapFoundM_front hu.1 (hu.2 ▸ hread)]
    simp [Turn.write, placeAll]

/-- Enough turns make of the text what `placeAll` does. -/
theorem loop_eq (maxDepth : Int) (c : Component) (t : Text) {turns pos : Nat}
    (h : Text.occurrences (openTag c) (t.drop pos) < turns) :
    loop maxDepth c t turns pos = some <$> placeAll maxDepth c (t.drop pos) := by
  induction turns generalizing pos with
  | zero => cases h
  | succ turns ih =>
    rw [loop]
    cases hturn : turn? c t pos with
    | none => rw [placeAll_stop maxDepth hturn, map_pure]
    | some turn =>
      have hfewer := occurrences_turn hturn
      have hrest : Text.occurrences (openTag c) (t.drop turn.next) < turns := by omega
      rw [placeAll_turn maxDepth hturn]
      simp only [ih hrest]
      simp

end

/-- Each turn of the loop moves forward within the text, and one turn more than there are tag names in the text is
enough for it to end with what `placeAll` makes of the text, whatever work is done before. -/
theorem loop_ends (maxDepth : Int) (c : Component) (t : Text) :
    (∀ pos turn, turn? c t pos = some turn → pos < turn.next ∧ turn.next ≤ t.length) ∧
      ∀ turns, Text.occurrences (openTag c) t + 1 ≤ turns → ∀ w, (loop maxDepth c t turns 0).run w =
        (some ((placeAll maxDepth c t).run w).1, ((placeAll maxDepth c t).run w).2) := by
  refine ⟨fun pos turn => turn_advances, fun turns hturns w => ?_⟩
  have hall : Text.occurrences (openTag c) (t.drop 0) < turns := hturns
  rw [loop_eq maxDepth c t hall]
  rfl

/-- An open payload, a longer name in it, and a tag that is cut off at the end of the text. -/
theorem loop_ends_malformed :
    let t : Text := "<ApiParams parameters=\x7b[1 <ApiParamsX <ApiParams"
    turn? .parameters t 0 = some ⟨0, some .unclosed, 10⟩ ∧ 10 ≤ t.length ∧
      Text.occurrences (openTag .parameters) t = 3 ∧
      ((loop 16 .parameters t 4 0).run Work.fresh).1.isSome = true := by
  have hturn : turn? .parameters "<ApiParams parameters=\x7b[1 <ApiParamsX <ApiParams".toList 0 =
      some ⟨0, some .unclosed, 10⟩ := by decide +kernel
  have hcount : Text.occurrences (openTag .parameters) "<ApiParams parameters=\x7b[1 <ApiParamsX <ApiParams".toList =
      3 := by decide +kernel
  have hall := loop_ends 16 .parameters "<ApiParams parameters=\x7b[1 <ApiParamsX <ApiParams".toList
  have hrun := hall.2 4 (by rw [hcount]) Work.fresh
  exact ⟨hturn, (hall.1 0 _ hturn).2, hcount, by rw [hrun]; rfl⟩

end Api

end DocPages
