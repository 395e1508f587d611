import DocPages.Proofs.Api.Fault
import DocPages.Proofs.Json.Strings

/-!
# Tags in the strings of a payload

The passes run one after the other over the same text, so a pass sees the payloads of the tags that later passes
look for. It finds a tag of its own kind there if and only if a string or a name holds one, up to the end of its
name. A payload whose strings hold no other tag is taken whole and gives its card.
-/

namespace DocPages.Api

open Json

/-- A text holds a tag of the kind, and the character that ends its name is no control character. -/
def Mentions (c : Component) (s : Text) : Prop :=
  ∃ x, endsName [x] = true ∧ 0x20 ≤ x.toNat ∧ openTag c ++ [x] <:+: s

/-- The tag of a value. -/
def tagged (c : Component) (v : Json) : Tagged := ⟨c, compact v, v, []⟩

/-! ## What a pass finds -/

theorem occurrence?_append {c : Component} {rest : Text} (h : endsName rest = true) :
    (occurrence? c (openTag c ++ rest)).isSome = true := by
  have hafter : Text.after? ('<' :: c.tag) (openTag c ++ rest) = some rest := Text.after?_append (openTag c) rest
  simp only [occurrence?, hafter, Option.bind_eq_bind, Option.bind_some, h]
  cases payloadStart? c rest with
  | none => rfl
  | some body =>
    cases hscan : splitClosing .outside 1 body with
    | none => simp [hscan]
    | some p => simp [hscan]

/-- A tag begins where its name stands and ends. -/
theorem occurrence?_eq_none_iff {c : Component} {t : Text} :
    occurrence? c t = none ↔ ∀ rest, t = openTag c ++ rest → endsName rest = false := by
  constructor
  · rintro h rest rfl
    refine Bool.eq_false_iff.2 fun hends => ?_
    have hsome := occurrence?_append (c := c) hends
    rw [h] at hsome
    cases hsome
  · intro h
    cases hafter : Text.after? ('<' :: c.tag) t with
    | none => simp [occurrence?, hafter]
    | some rest =>
      have hends : endsName rest = false := h rest (Text.eq_append_of_after? hafter)
      simp [occurrence?, hafter, hends]

/-- In a text that does not end with the name of a tag. -/
theorem found_eq_nil_iff_names {c : Component} {t : Text} (hend : ¬ openTag c <:+ t) :
    found (occurrence? c) t = [] ↔ ∀ x, endsName [x] = true → ¬ openTag c ++ [x] <:+: t := by
  rw [found_eq_nil_iff]
  constructor
  · rintro h x hx ⟨a, b, hab⟩
    have hnone := h a (openTag c ++ [x] ++ b) (by simp [← hab]) (by simp [openTag])
    have hends : endsName (x :: b) = false := occurrence?_eq_none_iff.1 hnone (x :: b) (by simp)
    exact absurd (hx.symm.trans hends) (by decide)
  · intro h a b hab hb
    rw [List.append_nil, occurrence?_eq_none_iff]
    rintro rest rfl
    cases rest with
    | nil => exact absurd ⟨a, by simp [hab]⟩ hend
    | cons x rest =>
      refine Bool.eq_false_iff.2 fun hx => h x hx ?_
      exact ⟨a, rest, by simp [hab]⟩

/-! ## What a pass finds in a tag -/

section
variable {c d : Component} {v : Json}

theorem not_suffix_tagged (c d : Component) (v : Json) : ¬ openTag d <:+ (tagged c v).write := by
  rintro ⟨a, ha⟩
  have hname : (openTag d).getLast? ≠ some '>' := by cases d <;> decide
  have hlast := congrArg List.getLast? ha
  have hne : openTag d ≠ [] := List.cons_ne_nil '<' d.tag
  rw [List.getLast?_append_of_ne_nil _ hne, Tagged.write, List.getLast?_append_of_ne_nil _ (by simp)] at hlast
  exact hname hlast

/-- A name and the character that ends it are written as they are, unless that is a control character. -/
theorem plain_name (d : Component) {x : Char} (hx : endsName [x] = true) :
    '\\' ∉ d.tag ++ [x] ∧ '"' ∉ d.tag ++ [x] ∧ ((∀ y ∈ d.tag ++ [x], writeChar y = [y]) ↔ 0x20 ≤ x.toNat) := by
  have htag : '\\' ∉ d.tag ∧ '"' ∉ d.tag ∧ (d.tag.all fun y => writeChar y = [y]) = true := by cases d <;> decide
  have hname : ∀ y ∈ d.tag, writeChar y = [y] := fun y hy => of_decide_eq_true (List.all_eq_true.1 htag.2.2 y hy)
  have hslash : x ≠ '\\' := by
    rintro rfl
    cases hx
  have hquote : x ≠ '"' := by
    rintro rfl
    cases hx
  refine ⟨by simp [htag.1, hslash.symm], by simp [htag.2.1, hquote.symm], ?_⟩
  rw [List.forall_mem_append, and_iff_right hname, List.forall_mem_singleton, writeChar_eq_self_iff,
    and_iff_right hquote, and_iff_right hslash]

theorem infix_tagged (h : d ≠ c) {x : Char} (hx : endsName [x] = true) :
    openTag d ++ [x] <:+: (tagged c v).write ↔ 0x20 ≤ x.toNat ∧ ∃ s ∈ texts v, openTag d ++ [x] <:+: s := by
  obtain ⟨hslash, hquote, hplain⟩ := plain_name d hx
  have hwrite : (tagged c v).write =
      openTag c ++ ((' ' :: c.attr ++ ['=', '\x7b']) ++ (compact v ++ "\x7d />".toList)) := by
    simp [Tagged.write, tagged]
  have hfirst : ¬ '<' :: (d.tag ++ [x]) <+:
      '<' :: (c.tag ++ ((' ' :: c.attr ++ ['=', '\x7b']) ++ (compact v ++ "\x7d />".toList))) :=
    fun hpre => h (eq_of_prefix_openTag ((List.prefix_append (openTag d) [x]).trans hpre))
  have htag : '<' ∉ c.tag := notMem_tag (by decide) c
  have hend : ¬ '<' :: (d.tag ++ [x]) <:+: "\x7d />".toList :=
    fun hinfix => absurd (List.IsInfix.subset hinfix (by simp : '<' ∈ '<' :: (d.tag ++ [x]))) (by decide)
  rw [hwrite]
  change '<' :: (d.tag ++ [x]) <:+: '<' :: (c.tag ++ _) ↔ _
  rw [List.infix_cons_iff, or_iff_right hfirst, infix_append_iff htag, infix_append_iff (lt_notMem_attr c),
    infix_compact hslash hquote, or_iff_left hend, Verbatim, hplain]
  rfl

/-- A pass over another kind finds something in a tag if and only if a string or a name in the value holds a tag of
that kind. -/
theorem found_tagged_iff (h : d ≠ c) :
    found (occurrence? d) (tagged c v).write = [] ↔ ∀ s ∈ texts v, ¬ Mentions d s := by
  rw [found_eq_nil_iff_names (not_suffix_tagged c d v)]
  constructor
  · rintro hnone s hs ⟨x, hx, hcontrol, hinfix⟩
    exact hnone x hx ((infix_tagged h hx).2 ⟨hcontrol, s, hs, hinfix⟩)
  · intro hnone x hx hinfix
    obtain ⟨hcontrol, s, hs, hinfix⟩ := (infix_tagged h hx).1 hinfix
    exact hnone s hs ⟨x, hx, hcontrol, hinfix⟩

end

/-! ## The whole tag -/

theorem responses_shows (maxDepth : Int) {ms : Members} (h : ms ≠ []) (s : IdSupply) :
    ∃ card ids, (responses maxDepth (.obj ms)).run s = (some card, ids) := by
  obtain ⟨m, ms, rfl⟩ := List.exists_cons_of_ne_nil h
  have hsome : ((responses maxDepth (.obj (m :: ms))).run s).1.isSome = true := rfl
  cases hrun : (responses maxDepth (.obj (m :: ms))).run s with
  | mk o ids =>
    rw [hrun] at hsome
    obtain ⟨card, rfl⟩ := Option.isSome_iff_exists.1 hsome
    exact ⟨card, ids, rfl⟩

/-- The passes over the other kinds leave a tag of responses alone if and only if no string and no name in its value
holds a tag of theirs. Then the tag gives one card, the one of its value, and no issue arises. -/
theorem responses_untouched_iff (maxDepth : Int) (ms : Members) (hne : ms ≠ []) (h : (Json.obj ms).Proper) :
    ((∀ d, d ≠ .responses → found (occurrence? d) (tagged .responses (.obj ms)).write = []) ↔
      ∀ d, d ≠ .responses → ∀ s ∈ texts (.obj ms), ¬ Mentions d s) ∧
    ((∀ d, d ≠ .responses → ∀ s ∈ texts (.obj ms), ¬ Mentions d s) →
      ∃ card ids, (responses maxDepth (.obj ms)).run IdSupply.fresh = (some card, ids) ∧
        (placeComponents maxDepth (tagged .responses (.obj ms)).write).run Work.fresh =
          (Shelf.place 0, ⟨ids, ⟨[card.write]⟩, []⟩)) := by
  have hfound (d : Component) (hd : d ≠ .responses) := found_tagged_iff (v := .obj ms) hd
  refine ⟨forall₂_congr hfound, fun hnone => ?_⟩
  obtain ⟨card, ids, hrun⟩ := responses_shows maxDepth hne IdSupply.fresh
  refine ⟨card, ids, hrun, ?_⟩
  have hother (d : Component) (hd : d ≠ .responses) (w : Work) :
      (placeAll maxDepth d (tagged .responses (.obj ms)).write).run w = ((tagged .responses (.obj ms)).write, w) :=
    placeAll_refused maxDepth (found_eq_nil_iff.1 ((hfound d hd).2 (hnone d hd))) w
  have hread : parse? (compact (.obj ms)) = some (.obj ms) := parse?_compact h
  have hoccurs := occurrence?_write (tagged .responses (.obj ms)) hread []
  have hplace : (place maxDepth .responses (.payload (compact (.obj ms)))).run Work.fresh =
      (Shelf.place 0, ⟨ids, ⟨[card.write]⟩, []⟩) := place_shown hread hrun
  have hend : (placeAll maxDepth .responses []).run ⟨ids, ⟨[card.write]⟩, []⟩ = ([], ⟨ids, ⟨[card.write]⟩, []⟩) := rfl
  have hpass := placeAll_found hoccurs (List.cons_ne_nil '<' _) hplace hend
  rw [List.append_nil, List.append_nil] at hpass
  have hcalm : Calm (Shelf.place 0) := calm_of_notMem (lt_notMem_place 0)
  exact placeComponents_of_kind hother hpass hcalm (by decide +kernel)

/-- Markup in a description, and a tag of its own kind. -/
theorem responses_untouched_iff_own_kind :
    let ms : Members := [("200", .obj [("description", .str "An <b>id</b>, as in <ApiResponse />")])]
    ms ≠ [] ∧ (Json.obj ms).Proper ∧ (∀ d, d ≠ .responses → ∀ s ∈ texts (.obj ms), ¬ Mentions d s) ∧
      ∃ card ids, (responses 5 (.obj ms)).run IdSupply.fresh = (some card, ids) ∧
        (placeComponents 5 (tagged .responses (.obj ms)).write).run Work.fresh =
          (Shelf.place 0, ⟨ids, ⟨[card.write]⟩, []⟩) := by
  intro ms
  have hne : ms ≠ [] := List.cons_ne_nil _ _
  have hproper : (Json.obj ms).Proper := by simp [ms, Proper, ProperMembers]
  have hfree : ∀ s ∈ texts (.obj ms), ∀ d ∈ [Component.security, .parameters, .request], ¬ openTag d <:+: s := by
    decide +kernel
  have hnone : ∀ d, d ≠ .responses → ∀ s ∈ texts (.obj ms), ¬ Mentions d s := by
    rintro d hd s hs ⟨x, -, -, hinfix⟩
    have hmem : d ∈ [Component.security, .parameters, .request] := by cases d <;> simp at hd ⊢
    exact hfree s hs d hmem ((List.prefix_append _ _).isInfix.trans hinfix)
  exact ⟨hne, hproper, hnone, (responses_untouched_iff 5 ms hne hproper).2 hnone⟩

/-- A tag in a description is taken for one, and its payload is no value. The box that takes its place breaks the
string, so the responses are no value either, and no card is left. -/
theorem responses_broken_by_mention :
    let v : Json := .obj [("200", .obj [("description", .str "Use <ApiParams parameters=\x7bx\x7d> here")])]
    let w := ((placeComponents 5 (tagged .responses v).write).run Work.fresh).2
    v.Proper ∧ w.issues = [.payload .parameters .invalid, .payload .responses .invalid] ∧ w.shelf.size = 2 := by
  exact ⟨by simp [Proper, ProperMembers], by decide +kernel⟩

end DocPages.Api
