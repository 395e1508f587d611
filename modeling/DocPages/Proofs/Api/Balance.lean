import DocPages.Proofs.Api.Payload

/-!
# Balanced braces

What the count of braces accepts, as a grammar: braces around items, which are characters other than braces and
quotes, whole strings, or balanced texts again. A text of the grammar is passed by the scan at any depth, and a
scan from depth one to its end has passed items: it is split at the first string or the first group of its own
and goes on with what is shorter.
-/

namespace DocPages.Api

/-- What follows the opening quote of a string, up to and with the closing one. A backslash escapes what follows it. -/
inductive Quoted : Text → Prop where
  | close : Quoted ['"']
  | escape (c : Char) {t : Text} (h : Quoted t) : Quoted ('\\' :: c :: t)
  | char {c : Char} {t : Text} (hquote : c ≠ '"') (hslash : c ≠ '\\') (h : Quoted t) : Quoted (c :: t)

/-- What stands between balanced braces. -/
inductive Items : Text → Prop where
  | nil : Items []
  | char {c : Char} {t : Text} (hopen : c ≠ '\x7b') (hclose : c ≠ '\x7d') (hquote : c ≠ '"') (h : Items t) :
      Items (c :: t)
  | string {s t : Text} (hs : Quoted s) (h : Items t) : Items ('"' :: (s ++ t))
  | group {s t : Text} (hs : Items s) (h : Items t) : Items ('\x7b' :: (s ++ '\x7d' :: t))

def Balanced (t : Text) : Prop := ∃ s, Items s ∧ t = '\x7b' :: (s ++ ['\x7d'])

/-! ## The scan passes what the grammar allows -/

theorem Quoting.next_inside {c : Char} (hquote : c ≠ '"') (hslash : c ≠ '\\') :
    Quoting.next .inside c = .inside := by
  unfold Quoting.next
  split <;> simp_all

theorem Quoting.next_outside {c : Char} (hquote : c ≠ '"') : Quoting.next .outside c = .outside := by
  unfold Quoting.next
  split <;> simp_all

theorem Quoted.passes {s : Text} (h : Quoted s) : Passes .inside s .outside := by
  induction h with
  | close => exact .cons (by simp) (.nil .outside)
  | escape c _ ih => exact .cons (by simp) (.cons (by simp [Quoting.next]) ih)
  | char hquote hslash _ ih =>
    refine .cons (by simp) ?_
    rw [Quoting.next_inside hquote hslash]
    exact ih

theorem Items.passes {s : Text} (h : Items s) : Passes .outside s .outside := by
  induction h with
  | nil => exact .nil .outside
  | char hopen hclose hquote _ ih =>
    refine .cons (fun _ => ⟨hopen, hclose⟩) ?_
    rw [Quoting.next_outside hquote]
    exact ih
  | string hs _ ih => exact .cons (by simp) (hs.passes.append ih)
  | group _ _ ihs iht => simpa using ihs.braces.append iht

/-! ## The grammar allows what the scan has passed -/

/-- What a scan in a string has met already of the character it is at. -/
def Quoting.owed : Quoting → Text
  | .escaped => ['\\']
  | _ => []

/-- A scan in a string that closes a brace has come to the end of the string first. -/
theorem splitClosing_string {q : Quoting} (hq : q ≠ .outside) {depth : Int} {t before rest : Text}
    (h : splitClosing q depth t = some (before, rest)) :
    ∃ s t' before', Quoted (q.owed ++ s) ∧ t = s ++ t' ∧ before = s ++ before' ∧
      splitClosing .outside depth t' = some (before', rest) := by
  induction t generalizing q before with
  | nil => cases h
  | cons c t ih =>
    have hdepth : depthAfter q depth c = depth := if_neg hq
    rw [splitClosing, if_neg (fun hc => hq hc.1), hdepth] at h
    obtain ⟨⟨b, r⟩, hb, he⟩ := Option.map_eq_some_iff.1 h
    obtain ⟨rfl, rfl⟩ := Prod.mk.inj he
    cases q with
    | outside => exact absurd rfl hq
    | escaped =>
      obtain ⟨s, t', b', hs, rfl, rfl, ht⟩ := ih (by simp [Quoting.next]) hb
      exact ⟨c :: s, t', b', .escape c hs, rfl, rfl, ht⟩
    | inside =>
      by_cases hquote : c = '"'
      · subst hquote
        exact ⟨['"'], t, b, .close, rfl, rfl, hb⟩
      · by_cases hslash : c = '\\'
        · subst hslash
          obtain ⟨s, t', b', hs, rfl, rfl, ht⟩ := ih (by simp [Quoting.next]) hb
          exact ⟨'\\' :: s, t', b', hs, rfl, rfl, ht⟩
        · rw [Quoting.next_inside hquote hslash] at hb
          obtain ⟨s, t', b', hs, rfl, rfl, ht⟩ := ih (by simp) hb
          exact ⟨c :: s, t', b', .char hquote hslash hs, rfl, rfl, ht⟩

theorem depthAfter_succ (q : Quoting) (depth : Int) (c : Char) :
    depthAfter q (depth + 1) c = depthAfter q depth c + 1 := by
  unfold depthAfter
  split
  · split
    · rfl
    · split <;> omega
  · rfl

theorem depthAfter_pos {q : Quoting} {depth : Int} {c : Char} (hd : 0 < depth)
    (h : ¬ (q = .outside ∧ c = '\x7d' ∧ depth = 1)) : 0 < depthAfter q depth c := by
  unfold depthAfter
  split
  · rename_i hq
    split
    · omega
    · split
      · rename_i hc
        have hne : depth ≠ 1 := fun hone => h ⟨hq, hc, hone⟩
        omega
      · exact hd
  · exact hd

/-- Before a brace is closed, so are the ones inside it. -/
theorem splitClosing_succ {q : Quoting} {depth : Int} (hd : 0 < depth) {t before rest : Text}
    (h : splitClosing q (depth + 1) t = some (before, rest)) :
    ∃ s t' before', splitClosing q depth t = some (s, t') ∧ before = s ++ '\x7d' :: before' ∧
      splitClosing .outside 1 t' = some (before', rest) := by
  induction t generalizing q depth before with
  | nil => cases h
  | cons c t ih =>
    have hne : depth + 1 ≠ 1 := by omega
    rw [splitClosing, if_neg (fun hc => hne hc.2.2), depthAfter_succ] at h
    obtain ⟨⟨b, r⟩, hb, he⟩ := Option.map_eq_some_iff.1 h
    obtain ⟨rfl, rfl⟩ := Prod.mk.inj he
    rw [splitClosing]
    by_cases hclosed : q = .outside ∧ c = '\x7d' ∧ depth = 1
    · obtain ⟨rfl, rfl, rfl⟩ := hclosed
      exact ⟨[], t, b, if_pos ⟨rfl, rfl, rfl⟩, rfl, hb⟩
    · rw [if_neg hclosed]
      obtain ⟨s, t', b', hs, rfl, ht⟩ := ih (depthAfter_pos hd hclosed) hb
      exact ⟨c :: s, t', b', by rw [hs]; rfl, rfl, ht⟩

/-- What a scan from depth one takes before it closes is made of items. -/
theorem items_of_splitClosing {t before rest : Text} (h : splitClosing .outside 1 t = some (before, rest)) :
    Items before := by
  -- A string or a group is taken off as a whole, so that what is left is shorter but no tail of the list.
  induction hn : t.length using Nat.strongRecOn generalizing t before rest with
  | ind n ih =>
    subst hn
    cases t with
    | nil => cases h
    | cons c t =>
      by_cases hclose : c = '\x7d'
      · subst hclose
        rw [splitClosing, if_pos ⟨rfl, rfl, rfl⟩] at h
        obtain ⟨rfl, -⟩ := Prod.mk.inj (Option.some.inj h)
        exact .nil
      · rw [splitClosing, if_neg (fun hc => hclose hc.2.1)] at h
        obtain ⟨⟨b, r⟩, hb, he⟩ := Option.map_eq_some_iff.1 h
        obtain ⟨rfl, rfl⟩ := Prod.mk.inj he
        by_cases hquote : c = '"'
        · subst hquote
          obtain ⟨s, t', b', hs, rfl, rfl, ht⟩ := splitClosing_string (by simp [Quoting.next]) hb
          exact .string hs (ih t'.length (by rw [List.length_cons, List.length_append]; omega) ht rfl)
        · rw [Quoting.next_outside hquote] at hb
          by_cases hopen : c = '\x7b'
          · subst hopen
            obtain ⟨s, t', b', hs, rfl, ht⟩ := splitClosing_succ Int.one_pos hb
            have hshort := congrArg List.length (eq_of_splitClosing hs)
            rw [List.length_append, List.length_cons] at hshort
            exact .group (ih t.length (by simp) hs rfl) (ih t'.length (by rw [List.length_cons]; omega) ht rfl)
          · have hdepth : depthAfter .outside 1 c = 1 := by simp [depthAfter, hopen, hclose]
            rw [hdepth] at hb
            exact .char hopen hclose hquote (ih t.length (by simp) hb rfl)

theorem splitClosing_eq_some_iff {t before rest : Text} :
    splitClosing .outside 1 t = some (before, rest) ↔ Items before ∧ t = before ++ '\x7d' :: rest := by
  constructor
  · exact fun h => ⟨items_of_splitClosing h, eq_of_splitClosing h⟩
  · rintro ⟨h, rfl⟩
    exact splitClosing_of_passes h.passes rest

/-! ## The brace that closes -/

theorem balanced_prefix_iff {p s : Text} :
    p <+: '\x7b' :: s ∧ Balanced p ↔
      ∃ before rest, splitClosing .outside 1 s = some (before, rest) ∧ p = '\x7b' :: (before ++ ['\x7d']) := by
  simp only [splitClosing_eq_some_iff]
  constructor
  · rintro ⟨⟨rest, hp⟩, before, hbefore, rfl⟩
    have hs : before ++ '\x7d' :: rest = s := by simpa using hp
    exact ⟨before, rest, ⟨hbefore, hs.symm⟩, rfl⟩
  · rintro ⟨before, rest, ⟨hbefore, rfl⟩, rfl⟩
    exact ⟨⟨rest, by simp⟩, before, hbefore, rfl⟩

/-- A text has one balanced beginning at most. -/
theorem Balanced.unique {p q t : Text} (hp : p <+: t) (hq : q <+: t) (hbp : Balanced p) (hbq : Balanced q) :
    p = q := by
  cases t with
  | nil =>
    obtain ⟨s, -, rfl⟩ := hbp
    cases List.prefix_nil.1 hp
  | cons c s =>
    have hc : c = '\x7b' := by
      obtain ⟨x, -, rfl⟩ := hbp
      exact (List.cons_prefix_cons.1 hp).1.symm
    subst hc
    obtain ⟨before, rest, h, rfl⟩ := balanced_prefix_iff.1 ⟨hp, hbp⟩
    obtain ⟨before', rest', h', rfl⟩ := balanced_prefix_iff.1 ⟨hq, hbq⟩
    rw [h] at h'
    rw [(Prod.mk.inj (Option.some.inj h')).1]

theorem extract_eq_iff {t p : Text} {start i : Nat} (hlen : i < t.length) :
    t.extract start (i + 1) = p ↔ p <+: t.drop start ∧ p.length = i + 1 - start := by
  rw [List.extract_eq_take_drop]
  constructor
  · rintro rfl
    refine ⟨List.take_prefix _ _, ?_⟩
    simp
    omega
  · rintro ⟨hp, hlength⟩
    rw [← hlength]
    exact (List.prefix_iff_eq_take.1 hp).symm

theorem closingBrace?_eq_some_iff {t s : Text} {start i : Nat} (h : t.drop start = '\x7b' :: s) :
    closingBrace? t start = some i ↔ start ≤ i ∧ i < t.length ∧ Balanced (t.extract start (i + 1)) := by
  rw [closingBrace?_eq h]
  have hlength := congrArg List.length h
  rw [List.length_drop, List.length_cons] at hlength
  constructor
  · intro hi
    obtain ⟨⟨before, rest⟩, hsplit, rfl⟩ := Option.map_eq_some_iff.1 hi
    obtain ⟨hp, hbalanced⟩ := balanced_prefix_iff.2 ⟨before, rest, hsplit, rfl⟩
    have hs := congrArg List.length (eq_of_splitClosing hsplit)
    rw [List.length_append, List.length_cons] at hs
    have hwithin : start + 1 + before.length < t.length := by omega
    have hword := (extract_eq_iff hwithin).2 ⟨h ▸ hp, by simp; omega⟩
    exact ⟨by omega, hwithin, hword ▸ hbalanced⟩
  · rintro ⟨hi, hwithin, hbalanced⟩
    obtain ⟨hp, hword⟩ := (extract_eq_iff hwithin).1 rfl
    rw [h] at hp
    obtain ⟨before, rest, hsplit, heq⟩ := balanced_prefix_iff.1 ⟨hp, hbalanced⟩
    rw [heq] at hword
    rw [hsplit]
    simp at hword ⊢
    omega

theorem closingBrace?_eq_none_iff {t s : Text} {start : Nat} (h : t.drop start = '\x7b' :: s) :
    closingBrace? t start = none ↔ ∀ p, p <+: t.drop start → ¬ Balanced p := by
  rw [closingBrace?_eq h, h, Option.map_eq_none_iff]
  constructor
  · intro hnone p hp hbalanced
    obtain ⟨before, rest, hsplit, -⟩ := balanced_prefix_iff.1 ⟨hp, hbalanced⟩
    rw [hnone] at hsplit
    cases hsplit
  · intro hnone
    cases hsplit : splitClosing .outside 1 s with
    | none => rfl
    | some p =>
      obtain ⟨hp, hbalanced⟩ := balanced_prefix_iff.2 ⟨p.1, p.2, hsplit, rfl⟩
      exact absurd hbalanced (hnone _ hp)

/-- From an opening brace, the scan finds the end of the one balanced text that begins there, and nothing if there
is none. -/
theorem closingBrace?_iff_balanced (t : Text) (start : Nat) (h : t[start]? = some '\x7b') :
    (∀ i, closingBrace? t start = some i ↔ start ≤ i ∧ i < t.length ∧ Balanced (t.extract start (i + 1))) ∧
      (closingBrace? t start = none ↔ ∀ p, p <+: t.drop start → ¬ Balanced p) ∧
      ∀ p q, p <+: t.drop start → q <+: t.drop start → Balanced p → Balanced q → p = q := by
  obtain ⟨hstart, hchar⟩ := List.getElem?_eq_some_iff.1 h
  have hdrop : t.drop start = '\x7b' :: t.drop (start + 1) := by
    rw [List.drop_eq_getElem_cons hstart, hchar]
  exact ⟨fun i => closingBrace?_eq_some_iff hdrop, closingBrace?_eq_none_iff hdrop, fun p q => Balanced.unique⟩

/-- A brace and an escaped quote in a string, a group inside the braces, and a further brace behind them. -/
theorem closingBrace?_iff_balanced_nested :
    let t : Text := "a=\x7b\"\x7d\\\"\": \x7b\x7d\x7d \x7d"
    t[2]? = some '\x7b' ∧ closingBrace? t 2 = some 12 ∧ Balanced (t.extract 2 13) := by
  have hclose : closingBrace? "a=\x7b\"\x7d\\\"\": \x7b\x7d\x7d \x7d".toList 2 = some 12 := by decide +kernel
  have hall := closingBrace?_iff_balanced "a=\x7b\"\x7d\\\"\": \x7b\x7d\x7d \x7d".toList 2 (by decide +kernel)
  exact ⟨by decide +kernel, hclose, ((hall.1 12).1 hclose).2.2⟩

end DocPages.Api
