import DocPages.Proofs.Api.Document

/-!
# Tags with an open payload

The payload of a tag may lack its closing brace. The count of braces knows nothing of the end of the tag, so it
goes on in the prose behind it. If it stays open to the end of the text, the tag loses its name only and all
else is kept. If the prose closes it, what was taken can be no value, since it holds the end of the tag and a
line break; and besides what was taken, the text up to the next bracket is lost.
-/

namespace DocPages.Api

open Json

/-- The end of a tag and a line break do not both occur in the text of a value: a slash stands in strings only,
a line break never does. -/
theorem parse?_tagEnd (a b : Text) : parse? (a ++ '/' :: '>' :: '\n' :: b) = none := by
  cases h : parse? (a ++ '/' :: '>' :: '\n' :: b) with
  | none => rfl
  | some v =>
    have hlegal := (legal_of_parse? h).behind
    generalize a.foldl Quoting.next .outside = q at hlegal
    cases hlegal with
    | cons hslash hrest =>
      cases hrest with
      | cons _ hrest =>
        cases hrest with
        | cons hbreak _ =>
          cases q with
          | outside => exact absurd rfl hslash
          | inside => exact absurd hbreak (by decide)
          | escaped => exact absurd hbreak (by decide)

theorem payload?_tagEnd (a b : Text) : payload? (a ++ '/' :: '>' :: '\n' :: b) = none := by
  have hbraces : '\x7b' :: (a ++ '/' :: '>' :: '\n' :: b) ++ ['\x7d'] =
      ('\x7b' :: a) ++ '/' :: '>' :: '\n' :: (b ++ ['\x7d']) := by simp
  rw [payload?, parse?_tagEnd, hbraces, parse?_tagEnd]
  rfl

/-! ## The scan -/

/-- A scan that does not close in a text takes all of it before it closes further on. -/
theorem splitClosing_append {q : Quoting} {depth : Int} {t u before rest : Text}
    (h : splitClosing q depth t = none) (hs : splitClosing q depth (t ++ u) = some (before, rest)) :
    ∃ x, before = t ++ x ∧ u = x ++ '\x7d' :: rest := by
  induction t generalizing q depth before with
  | nil => exact ⟨before, rfl, eq_of_splitClosing hs⟩
  | cons c t ih =>
    rw [splitClosing] at h
    rw [List.cons_append, splitClosing] at hs
    split at h
    · cases h
    · rename_i hc
      rw [if_neg hc] at hs
      obtain ⟨⟨y, r⟩, hy, he⟩ := Option.map_eq_some_iff.1 hs
      obtain ⟨rfl, rfl⟩ := Prod.mk.inj he
      obtain ⟨x, rfl, hu⟩ := ih (Option.map_eq_none_iff.1 h) hy
      exact ⟨x, rfl, hu⟩

/-- The beginning of a tag with a payload, up to the brace. -/
def lead (c : Component) : Text := openTag c ++ (' ' :: c.attr ++ ['='])

/-- A tag that ends before its payload does. -/
def broken (c : Component) (g : Text) : Text := lead c ++ '\x7b' :: (g ++ " />")

theorem closingBrace?_lead (c : Component) (t : Text) :
    closingBrace? (lead c ++ '\x7b' :: t) (lead c).length =
      (splitClosing .outside 1 t).map fun (before, _) => (lead c).length + 1 + before.length :=
  closingBrace?_eq (List.drop_left ..)

/-- What stands behind the brace of a tag with an open payload and a text behind it. -/
def behind (g s : Text) : Text := g ++ (" />".toList ++ '\n' :: '\n' :: s)

theorem broken_append (c : Component) (g s : Text) :
    broken c g ++ ("\n\n" ++ s) = lead c ++ '\x7b' :: behind g s := by
  simp [broken, behind]

/-- What the scan takes if it closes in the text behind the tag. -/
theorem splitClosing_behind {g s before rest : Text} (hopen : splitClosing .outside 1 (g ++ " />") = none)
    (h : splitClosing .outside 1 (behind g s) = some (before, rest)) :
    ∃ a, before = g ++ (" />".toList ++ '\n' :: '\n' :: a) ∧ s = a ++ '\x7d' :: rest := by
  rw [behind, ← List.append_assoc] at h
  obtain ⟨x, rfl, hx⟩ := splitClosing_append hopen h
  cases x with
  | nil => exact absurd (List.cons.inj hx).1 (by decide)
  | cons c x =>
    cases x with
    | nil => exact absurd (List.cons.inj (List.cons.inj hx).2).1 (by decide)
    | cons d a =>
      simp only [List.cons_append, List.cons.injEq] at hx
      obtain ⟨rfl, rfl, hx⟩ := hx
      exact ⟨a, by simp, hx⟩

/-! ## The pass over the tag -/

theorem lead_append (c : Component) (t : Text) :
    lead c ++ '\x7b' :: t = openTag c ++ (' ' :: c.attr ++ ['=', '\x7b'] ++ t) := by
  simp [lead]

theorem occurrence?_lead (c : Component) (t : Text) : occurrence? c (lead c ++ '\x7b' :: t) =
    match splitClosing .outside 1 t with
    | none => some (.unclosed, ' ' :: c.attr ++ ['=', '\x7b'] ++ t)
    | some (raw, rest) => some (.payload raw, (afterTag? rest).getD rest) := by
  have hname : endsName (' ' :: c.attr ++ ['=', '\x7b'] ++ t) = true := rfl
  have hafter : Text.after? ('<' :: c.tag) (lead c ++ '\x7b' :: t) =
      some (' ' :: c.attr ++ ['=', '\x7b'] ++ t) := by
    rw [lead_append]
    exact Text.after?_append (openTag c) _
  simp only [occurrence?, hafter, Option.bind_eq_bind, Option.bind_some, hname, payloadStart?_attr]
  cases splitClosing .outside 1 t with
  | none => rfl
  | some p => rfl

/-- The work with a fault reported, and its box on the shelf. -/
def rejected (c : Component) (f : Fault) (w : Work) : Work :=
  { w with
    shelf := ⟨w.shelf.blocks ++ [(faultBox c f).write]⟩
    issues := w.issues ++ [.payload c f] }

theorem suffix_afterTag? (t : Text) : (afterTag? t).getD t <:+ t := by
  rw [afterTag?]
  cases h : Text.cut? ">" t with
  | none => exact List.suffix_rfl
  | some p => exact ⟨p.1 ++ ">".toList, (Text.eq_of_cut? h).symm⟩

/-- A text without a tag of the kind is left alone. -/
theorem placeAll_refused (maxDepth : Int) {c : Component} {t : Text} (h : Refused (occurrence? c) t []) (w : Work) :
    (placeAll maxDepth c t).run w = (t, w) := by
  have hend : (placeAll maxDepth c []).run w = ([], w) := rfl
  have hrun := placeAll_append h hend
  rwa [List.append_nil] at hrun

theorem placeAll_calm (maxDepth : Int) {t : Text} (h : Calm t) (d : Component) (w : Work) :
    (placeAll maxDepth d t).run w = (t, w) :=
  placeAll_refused maxDepth (refused_calm h (by simp) d) w

/-! ## The whole text -/

theorem placeKinds_fixed (maxDepth : Int) {cs : List Component} {t : Text}
    (h : ∀ d ∈ cs, ∀ w, (placeAll maxDepth d t).run w = (t, w)) (w : Work) :
    (cs.foldlM (fun t c => placeAll maxDepth c t) t).run w = (t, w) := by
  induction cs with
  | nil => rfl
  | cons d cs ih =>
    rw [List.foldlM_cons, StateT.run_bind, h d (by simp) w]
    exact ih fun e he => h e (by simp [he])

theorem mem_all (c : Component) : c ∈ Component.all := by cases c <;> decide

/-- A text whose tags are all of one kind, and what the pass over that kind makes of it. -/
theorem placeComponents_of_kind {maxDepth : Int} {c : Component} {t out : Text} {w w' : Work}
    (hother : ∀ d, d ≠ c → ∀ w, (placeAll maxDepth d t).run w = (t, w))
    (hrun : (placeAll maxDepth c t).run w = (out, w')) (hcalm : Calm out) (hmark : ¬ requestMark <:+: out) :
    (placeComponents maxDepth t).run w = (out, w') := by
  obtain ⟨before, after, hall, hc⟩ := List.eq_append_cons_of_mem (mem_all c)
  have hbefore := placeKinds_fixed maxDepth (fun d hd => hother d fun he => hc (he ▸ hd)) w
  have hafter := placeKinds_fixed maxDepth (fun d (_ : d ∈ after) => placeAll_calm maxDepth hcalm d) w'
  have hkinds : (Component.all.foldlM (fun t c => placeAll maxDepth c t) t).run w = (out, w') := by
    rw [hall, List.foldlM_append, StateT.run_bind, hbefore]
    change ((c :: after).foldlM (fun t c => placeAll maxDepth c t) t).run w = (out, w')
    rw [List.foldlM_cons, StateT.run_bind, hrun]
    exact hafter
  have hcut : Text.cut? requestMark out = none := Text.cut?_eq_none_iff.2 hmark
  rw [placeComponents, StateT.run_bind, hkinds]
  change (Work.withIds (wrapRequest out)).run w' = (out, w')
  rw [wrapRequest, hcut]
  rfl

theorem calm_append {s t : Text} (hs : '<' ∉ s) (ht : Calm t) : Calm (s ++ t) := fun c h =>
  ht c (Text.infix_of_append hs h)

theorem lt_notMem_place (n : Nat) : '<' ∉ Shelf.place n := by
  intro h
  have h : '<' ∈ Shelf.token n := by simpa [Shelf.place] using h
  exact absurd (Shelf.isAlphanum_of_mem_token h) (by decide)

section
variable {maxDepth : Int} {c : Component} {g s : Text} {w : Work}

theorem calm_behind (hg : '<' ∉ g) (hs : Calm s) : Calm (' ' :: c.attr ++ ['=', '\x7b'] ++ behind g s) := by
  have hbreaks : Calm ("\n\n".toList ++ s) := calm_append (by decide) hs
  have hend : Calm (" />".toList ++ ("\n\n".toList ++ s)) := calm_append (by decide) hbreaks
  exact calm_append (lt_notMem_attr c) (calm_append hg hend)

theorem requestMark_behind (hg : '<' ∉ g) (h : requestMark <:+: ' ' :: c.attr ++ ['=', '\x7b'] ++ behind g s) :
    requestMark <:+: s := by
  have hbehind : requestMark <:+: g ++ (" />".toList ++ ("\n\n".toList ++ s)) :=
    Text.infix_of_append (lt_notMem_attr c) h
  have hend : requestMark <:+: " />".toList ++ ("\n\n".toList ++ s) := Text.infix_of_append hg hbehind
  have hbreaks : requestMark <:+: "\n\n".toList ++ s := Text.infix_of_append (by decide) hend
  exact Text.infix_of_append (by decide) hbreaks

variable (maxDepth c) in
theorem placeAll_lead_of_ne (hg : '<' ∉ g) (hs : Calm s) (d : Component) (hd : d ≠ c) (w : Work) :
    (placeAll maxDepth d (lead c ++ '\x7b' :: behind g s)).run w = (lead c ++ '\x7b' :: behind g s, w) := by
  rw [lead_append]
  exact placeAll_append (refused_of_clear (clear_openTag hd _)) (placeAll_calm maxDepth (calm_behind hg hs) d w)

/-- A payload that stays open costs the name of its tag only. -/
theorem placeComponents_unclosed (hg : '<' ∉ g) (hs : Calm s) (hmark : ¬ requestMark <:+: s)
    (hscan : splitClosing .outside 1 (behind g s) = none) :
    (placeComponents maxDepth (lead c ++ '\x7b' :: behind g s)).run w =
      (Shelf.place w.shelf.size ++ (' ' :: c.attr ++ ['=', '\x7b'] ++ behind g s), rejected c .unbalanced w) := by
  have hread := occurrence?_lead c (behind g s)
  rw [hscan, lead_append] at hread
  have hcalm := calm_behind (c := c) hg hs
  have hrun := placeAll_found (x := Shelf.place w.shelf.size) (w := w) hread (List.cons_ne_nil '<' _) rfl
    (placeAll_calm maxDepth hcalm c (rejected c .unbalanced w))
  rw [← lead_append] at hrun
  refine placeComponents_of_kind (placeAll_lead_of_ne maxDepth c hg hs) hrun (calm_append (lt_notMem_place _) hcalm) ?_
  exact fun h => hmark (requestMark_behind hg (Text.infix_of_append (lt_notMem_place _) h))

/-- A payload that closes behind its tag is lost with the text up to the next bracket. -/
theorem placeComponents_closed (hg : '<' ∉ g) (hs : Calm s) (hmark : ¬ requestMark <:+: s)
    (hopen : splitClosing .outside 1 (g ++ " />") = none) {raw rest : Text}
    (hscan : splitClosing .outside 1 (behind g s) = some (raw, rest)) :
    (placeComponents maxDepth (lead c ++ '\x7b' :: behind g s)).run w =
      (Shelf.place w.shelf.size ++ (afterTag? rest).getD rest, rejected c .invalid w) := by
  obtain ⟨a, rfl, hprose⟩ := splitClosing_behind hopen hscan
  obtain ⟨u, hu⟩ := suffix_afterTag? rest
  have hinvalid : payload? (g ++ (" />".toList ++ '\n' :: '\n' :: a)) = none := by
    have hpayload := payload?_tagEnd (g ++ [' ']) ('\n' :: a)
    simpa using hpayload
  have hplace : (place maxDepth c (.payload (g ++ (" />".toList ++ '\n' :: '\n' :: a)))).run w =
      (Shelf.place w.shelf.size, rejected c .invalid w) := by
    rw [place, hinvalid]
    rfl
  have hkept : (afterTag? rest).getD rest <:+: s := by
    rw [hprose]
    exact (suffix_afterTag? rest).isInfix.trans ⟨a ++ ['\x7d'], [], by simp⟩
  have hcalm : Calm ((afterTag? rest).getD rest) := fun d hd => hs d (hd.trans hkept)
  have htext : lead c ++ '\x7b' :: behind g s =
      (lead c ++ '\x7b' :: (g ++ (" />".toList ++ '\n' :: '\n' :: a) ++ '\x7d' :: u)) ++
        (afterTag? rest).getD rest := by
    rw [eq_of_splitClosing hscan]
    simp [hu]
  have hread := occurrence?_lead c (behind g s)
  rw [hscan] at hread
  have hother := placeAll_lead_of_ne maxDepth c hg hs
  rw [htext] at hread hother ⊢
  have hrun := placeAll_found hread (List.cons_ne_nil '<' _) hplace
    (placeAll_calm maxDepth hcalm c (rejected c .invalid w))
  refine placeComponents_of_kind hother hrun (calm_append (lt_notMem_place _) hcalm) ?_
  exact fun h => hmark ((Text.infix_of_append (lt_notMem_place _) h).trans hkept)

end

theorem brace_notMem_place (n : Nat) : '\x7d' ∉ Shelf.place n := by
  intro h
  have h : '\x7d' ∈ Shelf.token n := by simpa [Shelf.place] using h
  exact absurd (Shelf.isAlphanum_of_mem_token h) (by decide)

/-- A tag with an open payload is reported, and its box is all that is stored. The text behind the tag is kept if
and only if the scan stays open in it too. -/
theorem open_payload_local_iff (maxDepth : Int) (c : Component) (g s : Text) (w : Work) (hg : '<' ∉ g)
    (hopen : closingBrace? (broken c g) (lead c).length = none) (hs : Calm s) (hmark : ¬ requestMark <:+: s) :
    let closing := closingBrace? (broken c g ++ ("\n\n" ++ s)) (lead c).length
    let fault := if closing.isNone then Fault.unbalanced else Fault.invalid
    ∃ out, (placeComponents maxDepth (broken c g ++ ("\n\n" ++ s))).run w = (out, rejected c fault w) ∧
      (s <:+ out ↔ closing = none) := by
  rw [broken, closingBrace?_lead, Option.map_eq_none_iff] at hopen
  rw [broken_append, closingBrace?_lead]
  cases hscan : splitClosing .outside 1 (behind g s) with
  | none =>
    refine ⟨_, placeComponents_unclosed hg hs hmark hscan, iff_of_true ?_ rfl⟩
    exact ⟨Shelf.place w.shelf.size ++ (' ' :: c.attr ++ ['=', '\x7b'] ++ (g ++ (" />".toList ++ ['\n', '\n']))),
      by simp [behind]⟩
  | some p =>
    obtain ⟨raw, rest⟩ := p
    refine ⟨_, placeComponents_closed hg hs hmark hopen hscan, iff_of_false ?_ (by simp)⟩
    obtain ⟨a, -, rfl⟩ := splitClosing_behind hopen hscan
    have hshort := (suffix_afterTag? rest).length_le
    rintro ⟨x, hx⟩
    -- The brace that closed the payload would have to stand in the token.
    rw [← List.append_assoc] at hx
    rcases List.append_eq_append_iff.1 hx with ⟨m, hm, hbrace⟩ | ⟨m, -, hr⟩
    · cases m with
      | nil =>
        have hlen := congrArg List.length hbrace
        simp at hlen
        omega
      | cons d m =>
        obtain ⟨rfl, -⟩ := List.cons.inj hbrace
        exact brace_notMem_place w.shelf.size (by simp [hm])
    · have hlen := congrArg List.length hr
      simp at hlen
      omega

/-- Prose without a brace behind an open payload is kept. -/
theorem open_payload_local_iff_without_brace :
    let g : Text := "[1, 2"
    let s : Text := "See here.\n"
    '<' ∉ g ∧ closingBrace? (broken .parameters g) (lead .parameters).length = none ∧ Calm s ∧
      ¬ requestMark <:+: s ∧
      ∃ out, (placeComponents 5 (broken .parameters g ++ ("\n\n" ++ s))).run Work.fresh =
        (out, rejected .parameters .unbalanced Work.fresh) ∧ s <:+ out := by
  intro g s
  have hg : '<' ∉ g := by decide
  have hopen : closingBrace? (broken .parameters g) (lead .parameters).length = none := by decide
  have hs : Calm s := calm_of_notMem (by decide)
  have hmark : ¬ requestMark <:+: s := by decide +kernel
  have hscan : closingBrace? (broken .parameters g ++ ("\n\n" ++ s)) (lead .parameters).length = none := by decide
  obtain ⟨out, hrun, hkept⟩ := open_payload_local_iff 5 .parameters g s Work.fresh hg hopen hs hmark
  rw [hscan] at hrun
  exact ⟨hg, hopen, hs, hmark, out, hrun, hkept.2 hscan⟩

/-- A single brace in the prose ends the payload, and the prose up to it is gone. -/
theorem open_payload_swallows_prose :
    let g : Text := "[1, 2"
    let s : Text := "See \x7d here.\n"
    '<' ∉ g ∧ '>' ∉ g ∧ closingBrace? (broken .parameters g) (lead .parameters).length = none ∧ Calm s ∧
      ¬ requestMark <:+: s ∧
      ((placeComponents 5 (broken .parameters g ++ ("\n\n" ++ s))).run Work.fresh).1 =
        Shelf.place 0 ++ " here.\n" ∧
      ¬ s <:+ ((placeComponents 5 (broken .parameters g ++ ("\n\n" ++ s))).run Work.fresh).1 := by
  intro g s
  have hrun : ((placeComponents 5 (broken .parameters g ++ ("\n\n" ++ s))).run Work.fresh).1 =
      Shelf.place 0 ++ " here.\n" := by decide +kernel
  refine ⟨by decide, by decide, by decide, calm_of_notMem (by decide), by decide +kernel, hrun, ?_⟩
  rw [hrun]
  decide +kernel

end DocPages.Api
