import DocPages.Proofs.Page.Anatomy
import DocPages.Proofs.Page.Thins

/-!
# Tidy texts

A text is read character by character, in or outside of tags. It is tidy if its tags are sound, each of them is closed,
and between the items of a group stands nothing but blanks. In a tidy text a component is made of whole tags and what
stands between them.
-/

namespace DocPages

/-- The components that group items. -/
inductive Group where
  | tabs | steps
  deriving DecidableEq

namespace Group

def name : Group → Text
  | tabs => "Tabs"
  | steps => "Steps"

def item : Group → Text
  | tabs => "Tab"
  | steps => "Step"

/-- Whether a tag that says `inside` opens the group. -/
def opens (g : Group) (inside : Text) : Bool := (Text.after? g.name inside).any (·.all isBlank)

/-- Whether a tag that says `inside` opens an item: it has a title and nothing else. -/
def opensItem (g : Group) (inside : Text) : Bool :=
  ((do
    let t ← Text.after? g.item inside
    if !t.head?.any isBlank then none
    let t ← Text.after? "title=\"" (Text.dropBlanks t)
    let (_, t) ← Text.cut? "\"" t
    if t.all isBlank then some () else none) : Option Unit).isSome

end Group

/-- Where a text goes on: behind the start tag of a group, behind an item of it, or anywhere else. -/
inductive Zone where
  | anywhere
  | opened (g : Group)
  | between (g : Group)
  deriving DecidableEq

namespace Zone

/-- The zone behind a tag. -/
def behind (inside : Text) : Zone :=
  if Group.tabs.opens inside then opened .tabs
  else if Group.steps.opens inside then opened .steps
  else if inside = '/' :: Group.tabs.item then between .tabs
  else if inside = '/' :: Group.steps.item then between .steps
  else anywhere

/-- Whether the tag may stand there: in a group only items and, behind one, the end; the end of a group nowhere else. -/
def admits : Zone → Text → Bool
  | anywhere, inside => inside ≠ '/' :: Group.tabs.name && inside ≠ '/' :: Group.steps.name
  | opened g, inside => g.opensItem inside
  | between g, inside => g.opensItem inside || inside == '/' :: g.name

end Zone

/-- What begins with the tag of an API component ends its payload within the tag. -/
def closesPayload (inside : Text) : Bool :=
  Api.Component.all.all fun c => (Api.occurrence? c ('<' :: (inside ++ ['>']))).all fun p => p.1 != .unclosed

/-- The parts that no tag may hold: what begins code, callouts and artifacts, and tokens. -/
def tagParts : List Text := "DOCFORGESTASH" :: lineParts

def isSound (inside : Text) : Bool := tagParts.all (fun part => !inside.includes part) && closesPayload inside

/-- Where a reading of a text is: in some zone, and in a tag of which it has read something or in none. -/
structure Lex where
  zone : Zone
  tag : Option Text
  deriving DecidableEq

namespace Lex

def start : Lex := ⟨.anywhere, none⟩

/-- The next character is read, unless it makes the text untidy. -/
def step (σ : Lex) (c : Char) : Option Lex :=
  match σ.tag with
  | none =>
    if c = '<' then some { σ with tag := some [] }
    else if σ.zone = .anywhere ∨ isBlank c then some σ
    else none
  | some inside =>
    if c = '<' then none
    else if c = '>' then
      if isSound inside && σ.zone.admits inside then some ⟨.behind inside, none⟩ else none
    else some { σ with tag := some (inside ++ [c]) }

def run (σ : Lex) : Text → Option Lex
  | [] => some σ
  | c :: t => (σ.step c).bind fun ρ => ρ.run t

end Lex

/-- All tags of the text are sound and closed, and groups hold only items. -/
def Tidy (t : Text) : Prop := ∃ z, Lex.start.run t = some ⟨z, none⟩

/-- The text leads from outside of tags and groups to outside of them. -/
def Free (t : Text) : Prop := Lex.start.run t = some .start

instance (t : Text) : Decidable (Free t) := decEq (Lex.start.run t) (some .start)

instance (t : Text) : Decidable (Tidy t) :=
  decidable_of_iff ((Lex.start.run t).any (·.tag.isNone) = true) <| by
    rw [Tidy, Option.any_eq_true]
    constructor
    · rintro ⟨⟨z, tag⟩, hrun, htag⟩
      obtain rfl : tag = none := Option.isNone_iff_eq_none.1 htag
      exact ⟨z, hrun⟩
    · rintro ⟨z, hrun⟩
      exact ⟨⟨z, none⟩, hrun, rfl⟩

namespace Lex

variable {σ τ ρ : Lex} {s t x y : Text} {z : Zone} {c : Char}

/-! ## Readings in parts -/

theorem run_append (σ : Lex) (s t : Text) : σ.run (s ++ t) = (σ.run s).bind fun ρ => ρ.run t := by
  induction s generalizing σ with
  | nil => rfl
  | cons c s ih =>
    rw [List.cons_append, run, run, Option.bind_assoc]
    exact congrArg _ (funext fun ρ => ih ρ)

theorem run_append_eq_some : σ.run (s ++ t) = some τ ↔ ∃ ρ, σ.run s = some ρ ∧ ρ.run t = some τ := by
  rw [run_append, Option.bind_eq_some_iff]

theorem run_cons_eq_some : σ.run (c :: t) = some τ ↔ ∃ ρ, σ.step c = some ρ ∧ ρ.run t = some τ :=
  Option.bind_eq_some_iff

/-- Outside of tags and groups any character but a bracket may stand. -/
theorem run_plain (h : '<' ∉ s) : Free s := by
  induction s with
  | nil => rfl
  | cons c s ih =>
    obtain ⟨hc, hs⟩ := not_or.1 (List.mem_cons.not.1 h)
    have hstep : start.step c = some start := by simp [step, start, Ne.symm hc]
    rw [Free, run, hstep]
    exact ih hs

theorem run_blanks (h : ∀ c ∈ s, isBlank c = true) : run ⟨z, none⟩ s = some ⟨z, none⟩ := by
  induction s with
  | nil => rfl
  | cons c s ih =>
    obtain ⟨hc, hs⟩ := List.forall_mem_cons.1 h
    have hlt : c ≠ '<' := by
      rintro rfl
      exact absurd hc (by decide)
    have hstep : step ⟨z, none⟩ c = some ⟨z, none⟩ := by simp [step, hlt, hc]
    rw [run, hstep]
    exact ih hs

/-- Without a bracket one stays where one is outside of tags. -/
theorem run_outside (h : run ⟨z, none⟩ s = some ρ) (hs : '<' ∉ s) : ρ = ⟨z, none⟩ := by
  induction s with
  | nil => exact (Option.some.inj h).symm
  | cons c s ih =>
    obtain ⟨hc, hs⟩ := not_or.1 (List.mem_cons.not.1 hs)
    obtain ⟨ρ', hstep, hrest⟩ := run_cons_eq_some.1 h
    have hsame : (z = .anywhere ∨ isBlank c = true) ∧ (⟨z, none⟩ : Lex) = ρ' := by simpa [step, Ne.symm hc] using hstep
    exact ih (hsame.2 ▸ hrest) hs

/-- What stands in front of a bracket, or of a character that no gap between items may hold. -/
theorem tag_of_bracket (h : σ.run ('<' :: t) = some τ) : σ.tag = none := by
  obtain ⟨ρ, hstep, -⟩ := run_cons_eq_some.1 h
  cases htag : σ.tag with
  | none => rfl
  | some x => simp [step, htag] at hstep

theorem zone_of_char (h : run ⟨z, none⟩ (c :: t) = some τ) (hlt : c ≠ '<') (hblank : isBlank c = false) :
    z = .anywhere := by
  obtain ⟨ρ, hstep, -⟩ := run_cons_eq_some.1 h
  by_contra hz
  simp [step, hlt, hblank, hz] at hstep

/-- Inside a tag characters are collected. -/
theorem run_inside (h : σ.run y = some ρ) (htag : σ.tag = some x) (hy : '>' ∉ y) :
    '<' ∉ y ∧ ρ = ⟨σ.zone, some (x ++ y)⟩ := by
  induction y generalizing σ x with
  | nil =>
    obtain rfl := Option.some.inj h
    refine ⟨by simp, ?_⟩
    rw [List.append_nil, ← htag]
  | cons c y ih =>
    obtain ⟨hc, hy⟩ := not_or.1 (List.mem_cons.not.1 hy)
    obtain ⟨ρ', hstep, hrun⟩ := run_cons_eq_some.1 h
    have hlt : c ≠ '<' := by
      rintro rfl
      simp [step, htag] at hstep
    obtain rfl : { σ with tag := some (x ++ [c]) } = ρ' := by simpa [step, htag, hlt, Ne.symm hc] using hstep
    obtain ⟨hlt', hρ⟩ := ih hrun rfl hy
    refine ⟨by simp [hlt', Ne.symm hlt], ?_⟩
    rw [hρ]
    simp

theorem run_inside_of (hlt : '<' ∉ y) (hgt : '>' ∉ y) (z : Zone) (x : Text) :
    run ⟨z, some x⟩ y = some ⟨z, some (x ++ y)⟩ := by
  induction y generalizing x with
  | nil => simp [run]
  | cons c y ih =>
    obtain ⟨hc, hlt⟩ := not_or.1 (List.mem_cons.not.1 hlt)
    obtain ⟨hc', hgt⟩ := not_or.1 (List.mem_cons.not.1 hgt)
    have hstep : step ⟨z, some x⟩ c = some ⟨z, some (x ++ [c])⟩ := by simp [step, Ne.symm hc, Ne.symm hc']
    rw [run, hstep, Option.bind_some, ih hlt hgt]
    simp

theorem step_close (h : σ.step '>' = some ρ) (htag : σ.tag = some x) :
    isSound x = true ∧ σ.zone.admits x = true ∧ ρ = ⟨.behind x, none⟩ := by
  have hgood : (isSound x && σ.zone.admits x) = true := by
    by_contra hbad
    simp [step, htag, hbad] at h
  obtain rfl : (⟨.behind x, none⟩ : Lex) = ρ := by simpa [step, htag, hgood] using h
  rw [Bool.and_eq_true] at hgood
  exact ⟨hgood.1, hgood.2, rfl⟩

/-- A tag that is open is closed later, by a bracket behind something sound. -/
theorem exists_close (h : σ.run t = some τ) (htag : σ.tag = some x) (hτ : τ.tag = none) :
    ∃ y u, '<' ∉ y ∧ '>' ∉ y ∧ t = y ++ '>' :: u ∧ isSound (x ++ y) = true ∧ σ.zone.admits (x ++ y) = true ∧
      run ⟨.behind (x ++ y), none⟩ u = some τ := by
  by_cases hgt : '>' ∈ t
  · obtain ⟨y, u, rfl, hy⟩ := List.eq_append_cons_of_mem hgt
    obtain ⟨ρ, hin, hclose⟩ := run_append_eq_some.1 h
    obtain ⟨hlt, rfl⟩ := run_inside hin htag hy
    obtain ⟨ρ', hstep, hrest⟩ := run_cons_eq_some.1 hclose
    obtain ⟨hsound, hz, rfl⟩ := step_close hstep rfl
    exact ⟨y, u, hlt, hy, rfl, hsound, hz, hrest⟩
  · obtain ⟨-, rfl⟩ := run_inside h htag hgt
    cases hτ

theorem exists_tag (h : σ.run ('<' :: t) = some τ) (hτ : τ.tag = none) : ∃ y u, '>' ∉ y ∧ t = y ++ '>' :: u := by
  have htag := tag_of_bracket h
  obtain ⟨ρ, hstep, hrest⟩ := run_cons_eq_some.1 h
  obtain rfl : { σ with tag := some [] } = ρ := by simpa [step, htag] using hstep
  obtain ⟨y, u, -, hy, rfl, -⟩ := exists_close hrest rfl hτ
  exact ⟨y, u, hy, rfl⟩

/-- A tag, read backwards. -/
theorem run_tag (h : σ.run ('<' :: (x ++ '>' :: t)) = some τ) (hx : '>' ∉ x) :
    σ.tag = none ∧ '<' ∉ x ∧ isSound x = true ∧ σ.zone.admits x = true ∧ run ⟨.behind x, none⟩ t = some τ := by
  have htag := tag_of_bracket h
  obtain ⟨ρ, hstep, hrest⟩ := run_cons_eq_some.1 h
  obtain rfl : { σ with tag := some [] } = ρ := by simpa [step, htag] using hstep
  obtain ⟨ρ', hin, hclose⟩ := run_append_eq_some.1 hrest
  obtain ⟨hlt, rfl⟩ := run_inside hin rfl hx
  obtain ⟨ρ, hstep, hrest⟩ := run_cons_eq_some.1 hclose
  obtain ⟨hsound, hz, rfl⟩ := step_close hstep rfl
  exact ⟨htag, hlt, hsound, hz, hrest⟩

theorem run_tag_of (hlt : '<' ∉ x) (hgt : '>' ∉ x) (hsound : isSound x = true) (hz : z.admits x = true) :
    run ⟨z, none⟩ ('<' :: (x ++ ['>'])) = some ⟨.behind x, none⟩ := by
  have hopen : step ⟨z, none⟩ '<' = some ⟨z, some []⟩ := by simp [step]
  have hclose : step ⟨z, some x⟩ '>' = some ⟨.behind x, none⟩ := by simp [step, hsound, hz]
  rw [run, hopen, Option.bind_some, run_append, run_inside_of hlt hgt, Option.bind_some, List.nil_append, run, hclose]
  rfl

theorem not_isInfix_of_isSound {part : Text} (h : isSound x = true) (hpart : part ∈ tagParts) : ¬ part <:+: x := by
  rw [isSound, Bool.and_eq_true, List.all_eq_true] at h
  have hpart := h.1 part hpart
  rw [Bool.not_eq_true', Bool.eq_false_iff, ne_eq, Text.includes_iff] at hpart
  exact hpart

theorem bracketless_tagParts : ∀ part ∈ tagParts, '<' ∉ part ∧ '>' ∉ part ∧ part.head?.all (fun c => !isBlank c) = true ∧ part ≠ [] := by
  decide

/-- What no tag may hold stands outside of tags, and so does what stands in front of it up to a bracket. -/
theorem tag_of_part {part : Text} (hpart : part ∈ tagParts) (h : σ.run (x ++ (part ++ t)) = some τ) (hτ : τ.tag = none)
    (hx : '>' ∉ x) : σ.tag = none := by
  obtain ⟨-, hgt, -, -⟩ := bracketless_tagParts part hpart
  cases htag : σ.tag with
  | none => rfl
  | some y =>
    exfalso
    rw [← List.append_assoc] at h
    obtain ⟨ρ, hin, hrest⟩ := run_append_eq_some.1 h
    obtain ⟨-, rfl⟩ := run_inside hin htag (by simp [hx, hgt])
    obtain ⟨z, u, -, -, -, hsound, -, -⟩ := exists_close hrest rfl hτ
    exact not_isInfix_of_isSound hsound hpart ⟨y ++ x, z, by simp⟩

/-- There is no gap in front of it either. -/
theorem eq_start_of_part {part : Text} (hpart : part ∈ tagParts) (h : σ.run (part ++ t) = some τ) (hτ : τ.tag = none) :
    σ = start := by
  obtain ⟨hlt, -, hblank, hne⟩ := bracketless_tagParts part hpart
  have htag : σ.tag = none := tag_of_part (x := []) hpart h hτ (by simp)
  obtain ⟨z, tag⟩ := σ
  obtain rfl : tag = none := htag
  obtain ⟨c, part, rfl⟩ := List.exists_cons_of_ne_nil hne
  obtain rfl := zone_of_char h (fun hc => hlt (by simp [hc])) (by simpa using hblank)
  rfl

end Lex

/-! ## Zones around tags -/

namespace Free

variable {s t : Text}

theorem tidy (h : Free s) : Tidy s := ⟨.anywhere, h⟩

theorem append (hs : Free s) (ht : Free t) : Free (s ++ t) := Lex.run_append_eq_some.2 ⟨.start, hs, ht⟩

theorem run_append (hs : Free s) (t : Text) : Lex.start.run (s ++ t) = Lex.start.run t := by
  rw [Lex.run_append, show Lex.start.run s = some .start from hs]
  rfl

end Free

namespace Group

variable {g : Group} {x : Text}

theorem opensItem_eq_some (h : g.opensItem x = true) :
    ∃ b l b', b ≠ [] ∧ (∀ c ∈ b, isBlank c = true) ∧ '"' ∉ l ∧ (∀ c ∈ b', isBlank c = true) ∧
      x = g.item ++ (b ++ ("title=\"" ++ (l ++ '"' :: b'))) := by
  rw [opensItem, Option.isSome_iff_exists] at h
  obtain ⟨_, h⟩ := h
  simp only [Option.bind_eq_bind, Option.bind_eq_some_iff] at h
  obtain ⟨t, ht, h⟩ := h
  split at h
  · cases h
  · next hblank =>
    simp only [Option.bind_eq_some_iff] at h
    obtain ⟨u, hu, ⟨l, b'⟩, hl, h⟩ := h
    split at h
    · next hb' =>
      obtain ⟨b, hb, htext⟩ := Text.exists_blanks t
      have hcut : Text.cut? ['"'] u = some (l, b') := hl
      refine ⟨b, l, b', ?_, hb, Text.notMem_of_cut? hcut, List.all_eq_true.1 hb', ?_⟩
      · rintro rfl
        rw [htext, List.nil_append, Text.eq_append_of_after? hu] at hblank
        exact hblank (by simp; decide)
      · rw [Text.eq_append_of_after? ht, htext, Text.eq_append_of_after? hu, Text.cut?_eq_some hcut]
        simp
    · cases h

theorem opens_eq_some (h : g.opens x = true) : ∃ b, (∀ c ∈ b, isBlank c = true) ∧ x = g.name ++ b := by
  obtain ⟨b, hb, hblank⟩ := (Option.any_eq_true _ _).1 h
  exact ⟨b, List.all_eq_true.1 hblank, Text.eq_append_of_after? hb⟩

/-- The first letter tells that a tag opens neither a group nor an item. -/
theorem not_opens_of_head {c : Char} (hc : c ≠ 'T' ∧ c ≠ 'S') (x : Text) :
    g.opens (c :: x) = false ∧ g.opensItem (c :: x) = false := by
  have hfirst {a : Char} (ha : a = 'T' ∨ a = 'S') (lead : Text) : Text.after? (a :: lead) (c :: x) = none := by
    refine if_neg ?_
    rcases ha with rfl | rfl
    · exact hc.1.symm
    · exact hc.2.symm
  obtain ⟨a, lead, hname, ha⟩ : ∃ a lead, g.name = a :: lead ∧ (a = 'T' ∨ a = 'S') := by
    cases g <;> exact ⟨_, _, rfl, by decide⟩
  obtain ⟨a', lead', hitem, ha'⟩ : ∃ a lead, g.item = a :: lead ∧ (a = 'T' ∨ a = 'S') := by
    cases g <;> exact ⟨_, _, rfl, by decide⟩
  refine ⟨?_, ?_⟩
  · rw [opens, hname, hfirst ha]
    rfl
  · rw [opensItem, hitem, hfirst ha']
    rfl

/-- The tag of a group is not that of an item. -/
theorem not_opensItem_name (g g' : Group) (b : Text) : g'.opensItem (g.name ++ b) = false := by
  refine Bool.eq_false_iff.2 fun h => ?_
  obtain ⟨b', l, b'', hne, hb', -, -, hx⟩ := opensItem_eq_some h
  obtain ⟨d, b', rfl⟩ := List.exists_cons_of_ne_nil hne
  have hd := hb' d List.mem_cons_self
  have hs : isBlank 's' = false := by decide
  cases g <;> cases g' <;> simp [name, item] at hx
  · simp [← hx.1, hs] at hd
  · simp [← hx.1, hs] at hd

end Group

namespace Zone

variable {z : Zone} {g : Group} {x : Text}

theorem behind_of_head {c : Char} (hc : c ≠ 'T' ∧ c ≠ 'S' ∧ c ≠ '/') (x : Text) : behind (c :: x) = anywhere := by
  have hopens (g : Group) := (Group.not_opens_of_head (g := g) ⟨hc.1, hc.2.1⟩ x).1
  simp [behind, hopens, hc.2.2]

/-- No gap begins behind a tag with a quote in it. -/
theorem behind_of_quote (h : '"' ∈ x) : behind x = anywhere := by
  have hopens (g : Group) : g.opens x = false := by
    refine Bool.eq_false_iff.2 fun ho => ?_
    obtain ⟨b, hb, rfl⟩ := Group.opens_eq_some ho
    rcases List.mem_append.1 h with h | h
    · cases g <;> exact absurd h (by decide)
    · exact absurd (hb _ h) (by decide)
  have hitem (g : Group) : x ≠ '/' :: g.item := by
    rintro rfl
    cases g <;> exact absurd h (by decide)
  simp [behind, hopens, hitem]

theorem eq_anywhere_of_head {c : Char} (hc : c ≠ 'T' ∧ c ≠ 'S' ∧ c ≠ '/') (h : z.admits (c :: x) = true) : z = anywhere := by
  have hopens (g : Group) := (Group.not_opens_of_head (g := g) ⟨hc.1, hc.2.1⟩ x).2
  cases z with
  | anywhere => rfl
  | opened g => simp [admits, hopens] at h
  | between g => simp [admits, hopens, hc.2.2] at h

theorem behind_name (g : Group) {b : Text} (hb : ∀ c ∈ b, isBlank c = true) : behind (g.name ++ b) = opened g := by
  have hopens : g.opens (g.name ++ b) = true := by
    rw [Group.opens, Text.after?_append]
    exact List.all_eq_true.2 hb
  cases g with
  | tabs => simp [behind, hopens]
  | steps =>
    have htabs : Group.tabs.opens (Group.steps.name ++ b) = false := rfl
    simp [behind, hopens, htabs]

theorem eq_anywhere_of_name {b : Text} (h : z.admits (g.name ++ b) = true) : z = anywhere := by
  have hslash (g' : Group) : g.name ++ b ≠ '/' :: g'.name := by cases g <;> cases g' <;> simp [Group.name]
  cases z with
  | anywhere => rfl
  | opened g' => simp [admits, Group.not_opensItem_name] at h
  | between g' => simp [admits, Group.not_opensItem_name, hslash] at h

/-- End tags: that of an item, that of a group and others. -/
theorem behind_slash (x : Text) (h : ∀ g : Group, x ≠ g.item) : behind ('/' :: x) = anywhere := by
  have hopens (g : Group) := (Group.not_opens_of_head (g := g) (c := '/') (by decide) x).1
  simp [behind, hopens, h]

theorem behind_item (g : Group) : behind ('/' :: g.item) = between g := by cases g <;> rfl

theorem behind_slash_name (g : Group) : behind ('/' :: g.name) = anywhere :=
  behind_slash g.name fun g' => by cases g <;> cases g' <;> decide

theorem eq_anywhere_of_slash (h : z.admits ('/' :: x) = true) (hx : ∀ g : Group, x ≠ g.name) : z = anywhere := by
  have hopens (g : Group) := (Group.not_opens_of_head (g := g) (c := '/') (by decide) x).2
  cases z with
  | anywhere => rfl
  | opened g => simp [admits, hopens] at h
  | between g => simp [admits, hopens, hx] at h

theorem eq_between_of_slash_name (h : z.admits ('/' :: g.name) = true) : z = between g := by
  have hopens (g' : Group) := (Group.not_opens_of_head (g := g') (c := '/') (by decide) g.name).2
  cases z with
  | anywhere => cases g <;> cases h
  | opened g' => simp [admits, hopens] at h
  | between g' =>
    have hname : g.name = g'.name := by simpa [admits, hopens] using h
    cases g <;> cases g'
    · rfl
    · exact absurd hname (by decide)
    · exact absurd hname (by decide)
    · rfl

end Zone

/-! ## Components of tidy texts -/

namespace Lex

variable {σ τ : Lex} {s t x body : Text}

/-- The name of a component that is neither a group nor an item. -/
def Ungrouped (name : Text) : Prop := ∃ c rest, name = c :: rest ∧ c ≠ 'T' ∧ c ≠ 'S' ∧ c ≠ '/'

theorem Ungrouped.ne {name : Text} (h : Ungrouped name) (g : Group) : name ≠ g.name ∧ name ≠ g.item := by
  obtain ⟨c, rest, rfl, hT, hS, -⟩ := h
  cases g
  · exact ⟨fun he => hT (List.cons.inj he).1, fun he => hT (List.cons.inj he).1⟩
  · exact ⟨fun he => hS (List.cons.inj he).1, fun he => hS (List.cons.inj he).1⟩

/-- Such a tag does not stand in a gap between items. -/
theorem eq_start_of_tag {name : Text} (hname : Ungrouped name) (h : σ.run (Element.startTag name ++ t) = some τ)
    (hτ : τ.tag = none) (hgt : '>' ∉ name) : σ = start := by
  obtain ⟨c, rest, rfl, hc⟩ := hname
  have htag : σ.tag = none := tag_of_bracket h
  obtain ⟨z, tag⟩ := σ
  obtain rfl : tag = none := htag
  obtain ⟨ρ, hstep, hrest⟩ := run_cons_eq_some.1 h
  obtain rfl : (⟨z, some []⟩ : Lex) = ρ := by simpa [step] using hstep
  obtain ⟨ρ, hin, hinside⟩ := run_append_eq_some.1 hrest
  obtain ⟨-, rfl⟩ := run_inside hin rfl hgt
  obtain ⟨y, u, -, -, -, -, hz, -⟩ := exists_close hinside rfl hτ
  obtain rfl : z = .anywhere := Zone.eq_anywhere_of_head hc hz
  rfl

/-- A tag of such a component stands anywhere but in a gap between items, and so does what follows it. -/
theorem run_start_tag {name : Text} (hname : Ungrouped name) (h : σ.run (Element.startTag name ++ (x ++ '>' :: t)) = some τ)
    (hgt : '>' ∉ name ++ x) : σ = start ∧ isSound (name ++ x) = true ∧ start.run t = some τ := by
  obtain ⟨c, rest, rfl, hc⟩ := hname
  have htext : Element.startTag (c :: rest) ++ (x ++ '>' :: t) = '<' :: ((c :: (rest ++ x)) ++ '>' :: t) := by
    simp [Element.startTag]
  rw [htext] at h
  obtain ⟨htag, -, hsound, hz, hrest⟩ := run_tag h hgt
  obtain ⟨z, tag⟩ := σ
  obtain rfl : tag = none := htag
  obtain rfl : z = .anywhere := Zone.eq_anywhere_of_head hc hz
  rw [Zone.behind_of_head hc] at hrest
  exact ⟨rfl, hsound, hrest⟩

/-- What stands in front of an end tag of such a component, and what stands behind it. -/
theorem run_end_tag {name : Text} (hname : Ungrouped name) (hgt : '>' ∉ name)
    (h : start.run (body ++ (Element.endTag name ++ t)) = some τ) :
    Free body ∧ start.run t = some τ := by
  obtain ⟨ρ, hbody, hend⟩ := run_append_eq_some.1 h
  have htext : Element.endTag name ++ t = '<' :: (('/' :: name) ++ '>' :: t) := by simp [Element.endTag]
  rw [htext] at hend
  obtain ⟨htag, -, -, hz, hrest⟩ := run_tag hend (by simpa using hgt)
  obtain ⟨z, tag⟩ := ρ
  obtain rfl : tag = none := htag
  obtain rfl : z = .anywhere := Zone.eq_anywhere_of_slash hz fun g => (hname.ne g).1
  rw [Zone.behind_slash _ fun g => (hname.ne g).2] at hrest
  exact ⟨hbody, hrest⟩

/-- Behind a quote, blanks and a closing bracket no gap begins. -/
theorem run_quoted (h : σ.run (x ++ '"' :: (s ++ '>' :: t)) = some τ) (hs : ∀ c ∈ s, isBlank c = true) :
    start.run t = some τ := by
  have hblank : isBlank '>' = false ∧ isBlank '"' = false := by decide
  have hgt : '>' ∉ '"' :: s := by
    simp only [List.mem_cons, not_or]
    exact ⟨by decide, fun hmem => by simp [hs _ hmem] at hblank⟩
  obtain ⟨⟨z, tag⟩, -, hrest⟩ := run_append_eq_some.1 h
  cases tag with
  | none =>
    obtain rfl := zone_of_char hrest (by decide) hblank.2
    have hlt : '<' ∉ '"' :: (s ++ ['>']) := by
      simp only [List.mem_cons, List.mem_append, not_or]
      refine ⟨by decide, fun hmem => absurd (hs _ hmem) (by decide), by decide, by simp⟩
    have htext : '"' :: (s ++ '>' :: t) = '"' :: (s ++ ['>']) ++ t := by simp
    rw [htext, run_append, show run ⟨.anywhere, none⟩ _ = some start from run_plain hlt] at hrest
    exact hrest
  | some y =>
    have htext : '"' :: (s ++ '>' :: t) = ('"' :: s) ++ '>' :: t := rfl
    rw [htext] at hrest
    obtain ⟨ρ, hin, hclose⟩ := run_append_eq_some.1 hrest
    obtain ⟨-, rfl⟩ := run_inside hin rfl hgt
    obtain ⟨ρ, hstep, hend⟩ := run_cons_eq_some.1 hclose
    obtain ⟨-, -, rfl⟩ := step_close hstep rfl
    rwa [Zone.behind_of_quote (by simp)] at hend

/-- The items of a group: the start tag of one, read forwards. -/
theorem titled?_item {g : Group} (hx : g.opensItem x = true) :
    ∃ l, ∀ t, Element.titled? g.item ('<' :: (x ++ '>' :: t)) =
      (Element.body? g.item t).map fun p => (⟨l, p.1⟩, p.2) := by
  obtain ⟨b, l, b', hne, hb, hl, hb', rfl⟩ := Group.opensItem_eq_some hx
  refine ⟨l, fun t => ?_⟩
  have htext : '<' :: ((g.item ++ (b ++ ("title=\"" ++ (l ++ '"' :: b')))) ++ '>' :: t) =
      Element.startTag g.item ++ (b ++ ("title=\"" ++ (l ++ (['"'] ++ (b' ++ '>' :: t))))) := by simp [Element.startTag]
  have hhead : (b ++ ("title=\"" ++ (l ++ (['"'] ++ (b' ++ '>' :: t))))).head?.any isBlank = true := by
    obtain ⟨c, b, rfl⟩ := List.exists_cons_of_ne_nil hne
    exact hb c List.mem_cons_self
  have hdrop (u : Text) (b : Text) (hb : ∀ c ∈ b, isBlank c = true) (hu : ∀ c ∈ u.head?, isBlank c = false) :
      Text.dropBlanks (b ++ u) = u := by
    rw [Text.dropBlanks, Text.trimStart, List.dropWhile_append_of_pos hb]
    exact Text.trimStart_eq_self hu
  have htitle : Text.dropBlanks (b ++ ("title=\"" ++ (l ++ (['"'] ++ (b' ++ '>' :: t))))) =
      "title=\"" ++ (l ++ (['"'] ++ (b' ++ '>' :: t))) := hdrop _ b hb (by simp; decide)
  have hend : Text.dropBlanks (b' ++ '>' :: t) = '>' :: t := hdrop _ b' hb' (by simp; decide)
  have hcut : Text.cut? "\"" (l ++ (['"'] ++ (b' ++ '>' :: t))) = some (l, b' ++ '>' :: t) :=
    Text.cut?_append (@Text.clear_of_notMem [] _ _ hl _)
  rw [htext]
  simp only [Element.titled?, Text.after?_append, bind, Option.bind, hhead, htitle, hcut, hend]
  cases Element.body? g.item t <;> rfl

end Lex

end DocPages
