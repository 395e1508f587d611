import DocPages.Text.Pieces

/-!
# Searching a text

A search passes over a stretch in which no place is accepted and goes on behind a construct that it has
taken. Cutting, replacing and asking whether a part occurs are searches for a fixed text; they come down to
prefixes and infixes of lists.
-/

namespace DocPages

/-- What is said of the characters in a text is decided by going through the text, not through all characters. -/
instance decidableForallMem {p : Char → Prop} [DecidablePred p] (t : List Char) : Decidable (∀ c ∈ t, p c) :=
  List.decidableBAll p t

instance decidableExistsMem {p : Char → Prop} [DecidablePred p] (t : List Char) : Decidable (∃ c ∈ t, p c) :=
  List.decidableBEx p t

section
variable {α : Type} {c : α} {s s' t t' : List α}

/-- A separator that a text holds is the first one or stands behind it. -/
theorem eq_or_behind_of_append_cons (hs' : c ∉ s') (h : s ++ c :: t = s' ++ c :: t') :
    s = s' ∧ t = t' ∨ ∃ m, s = s' ++ c :: m ∧ t' = m ++ c :: t := by
  rcases List.append_eq_append_iff.1 h with ⟨m, rfl, hm⟩ | ⟨m, rfl, hm⟩
  · cases m with
    | nil => exact .inl ⟨(List.append_nil s).symm, (List.cons.inj hm).2⟩
    | cons d m => exact absurd (by simp [(List.cons.inj hm).1]) hs'
  · cases m with
    | nil => exact .inl ⟨List.append_nil s', (List.cons.inj hm).2.symm⟩
    | cons d m =>
      obtain ⟨rfl, ht'⟩ := List.cons.inj hm
      exact .inr ⟨m, rfl, ht'⟩

/-- A front without a separator stands before it. -/
theorem exists_append_of_append_cons {u : List α} (hs' : c ∉ s') (h : s' ++ u = s ++ c :: t) :
    ∃ m, s = s' ++ m ∧ u = m ++ c :: t := by
  rcases List.append_eq_append_iff.1 h with ⟨m, rfl, hm⟩ | ⟨m, rfl, hm⟩
  · exact ⟨m, rfl, hm⟩
  · cases m with
    | nil => exact ⟨[], by simp, hm.symm⟩
    | cons d m => exact absurd (by simp [(List.cons.inj hm).1]) hs'

/-- What stands in front of a separator is unique if it does not hold it. -/
theorem eq_of_append_cons (hs : c ∉ s) (hs' : c ∉ s') (h : s ++ c :: t = s' ++ c :: t') : s = s' ∧ t = t' :=
  (eq_or_behind_of_append_cons hs' h).resolve_right fun ⟨_, hm, _⟩ => hs (by simp [hm])

end

/-- No place inside `s` is accepted when `t` follows. -/
def Refused {β α : Type} (read : Reader β α) (s t : List β) : Prop :=
  ∀ a b, s = a ++ b → b ≠ [] → read (b ++ t) = none

theorem Refused.nil {β α : Type} (read : Reader β α) (t : List β) : Refused read [] t := by
  intro a b hab hb
  exact absurd (List.append_eq_nil_iff.1 hab.symm).2 hb

theorem Refused.cons {β α : Type} {read : Reader β α} {c : β} {s t : List β}
    (h : read (c :: (s ++ t)) = none) (hs : Refused read s t) : Refused read (c :: s) t := by
  intro a b hab hb
  cases a with
  | nil =>
    have hb : c :: s = b := hab
    exact hb ▸ h
  | cons d a => exact hs a b (List.cons.inj hab).2 hb

theorem Refused.tail {β α : Type} {read : Reader β α} {c : β} {s t : List β}
    (h : Refused read (c :: s) t) : Refused read s t := by
  intro a b hs hb
  exact h (c :: a) b (by simp [hs]) hb

theorem Refused.behind {β α : Type} {read : Reader β α} {s s' t : List β} (h : Refused read (s ++ s') t) :
    Refused read s' t := by
  intro a b hs hb
  exact h (s ++ a) b (by simp [hs]) hb

theorem Refused.append {β α : Type} {read : Reader β α} {s s' t : List β}
    (h : Refused read s (s' ++ t)) (h' : Refused read s' t) : Refused read (s ++ s') t := by
  intro a b hs hb
  rcases List.append_eq_append_iff.1 hs with ⟨m, rfl, rfl⟩ | ⟨m, rfl, rfl⟩
  · exact h' m b rfl hb
  · cases m with
    | nil => exact h' [] s' rfl (by simpa using hb)
    | cons c m => simpa using h a (c :: m) rfl (by simp)

/-- The reader accepts only what begins with `part`. -/
def Begins {β α : Type} (read : Reader β α) (part : List β) : Prop := ∀ t, ¬ part <+: t → read t = none

theorem Begins.bind {β α γ : Type} {read : Reader β α} {part : List β} (h : Begins read part)
    (f : α × List β → Option (γ × List β)) : Begins (fun t => (read t).bind f) part := by
  intro t ht
  simp [h t ht]

/-- Entries that have been accounted for are skipped. -/
theorem piecesFrom_length {β α : Type} (read : Reader β α) (s t : List β) :
    piecesFrom read s.length (s ++ t) = pieces read t := by
  induction s with
  | nil => rfl
  | cons b s ih => exact ih

theorem pieces_append {β α : Type} {read : Reader β α} {s t : List β} (h : Refused read s t) :
    pieces read (s ++ t) = s.map .kept ++ pieces read t := by
  induction s with
  | nil => rfl
  | cons b s ih =>
    have hb : read (b :: (s ++ t)) = none := h [] (b :: s) rfl (by simp)
    have hs : piecesFrom read 0 (s ++ t) = s.map .kept ++ pieces read t := ih h.tail
    simp [pieces, piecesFrom, hb, hs]

theorem pieces_found {β α : Type} {read : Reader β α} {b : β} {s t : List β} {a : α}
    (h : read (b :: s ++ t) = some (a, t)) :
    pieces read (b :: s ++ t) = .found a :: pieces read t := by
  have hr : read (b :: (s ++ t)) = some (a, t) := h
  have hskip : (s ++ t).length - t.length = s.length := by simp
  simp only [pieces, List.cons_append, piecesFrom, hr, hskip]
  rw [piecesFrom_length]
  rfl

/-- What is found in `s` does not depend on what follows. -/
def Splits {β α : Type} (read : Reader β α) (s : List β) : Prop :=
  ∀ t, pieces read (s ++ t) = pieces read s ++ pieces read t

namespace Splits

variable {β α : Type} {read : Reader β α} {s t : List β}

theorem of_refused (h : ∀ t, Refused read s t) : Splits read s := by
  intro t
  have hs : pieces read s = s.map .kept := by
    have happend := pieces_append (h [])
    rw [List.append_nil] at happend
    exact happend.trans (List.append_nil _)
  rw [pieces_append (h t), hs]

theorem of_found {a : α} (hs : s ≠ []) (h : ∀ t, read (s ++ t) = some (a, t)) : Splits read s := by
  obtain ⟨b, s, rfl⟩ := List.exists_cons_of_ne_nil hs
  intro t
  have hself : pieces read (b :: s) = [.found a] := by
    have hfound := pieces_found (h [])
    rwa [List.append_nil] at hfound
  rw [pieces_found (h t), hself, List.singleton_append]

theorem append (hs : Splits read s) (ht : Splits read t) : Splits read (s ++ t) := by
  intro u
  rw [List.append_assoc, hs, ht, hs, List.append_assoc]

end Splits

theorem infix_of_mem_splitWhere {β : Type} {p : β → Bool} {part as : List β} (h : part ∈ splitWhere p as) :
    part <:+: as := by
  have hall (as : List β) : (∀ part ∈ splitWhere p as, part <:+: as) ∧
      ∀ part ∈ (splitWhere p as).head?, part <+: as := by
    induction as with
    | nil => simp [splitWhere]
    | cons a as ih =>
      obtain ⟨hparts, hfront⟩ := ih
      cases hs : splitWhere p as with
      | nil => exact absurd hs (splitWhere_ne_nil p as)
      | cons q qs =>
        rw [hs] at hparts hfront
        have hrest : ∀ part ∈ q :: qs, part <:+: a :: as := fun part hp =>
          (hparts part hp).trans (List.suffix_cons a as).isInfix
        have hfirst : a :: q <+: a :: as := (List.prefix_cons_inj a).2 (hfront q rfl)
        by_cases ha : p a = true
        · simp only [splitWhere, ha, if_true, hs]
          exact ⟨List.forall_mem_cons.2 ⟨List.nil_infix, hrest⟩, by simp⟩
        · simp only [splitWhere, ha, hs]
          refine ⟨List.forall_mem_cons.2 ⟨hfirst.isInfix, fun part hp => ?_⟩, by simpa using hfirst⟩
          exact hrest part (List.mem_cons_of_mem q hp)
  exact (hall as).1 part h

section
variable {β α : Type} {read : Reader β α} {b : β} {s t : List β} {a : α}

theorem found_append (h : Refused read s t) : found read (s ++ t) = found read t := by
  rw [found, pieces_append h, List.filterMap_append, List.filterMap_eq_nil_iff.2, List.nil_append]
  · rfl
  · intro p hp
    obtain ⟨b, -, rfl⟩ := List.mem_map.1 hp
    rfl

theorem found_found (h : read (b :: s ++ t) = some (a, t)) :
    found read (b :: s ++ t) = a :: found read t := by
  rw [found, pieces_found h]
  rfl

/-- Nothing is found where no place is accepted. -/
theorem found_eq_nil_iff : found read t = [] ↔ Refused read t [] := by
  constructor
  · intro h
    induction t with
    | nil => exact .nil read []
    | cons b t ih =>
      cases hr : read (b :: t) with
      | some p => simp [found, pieces, piecesFrom, hr] at h
      | none =>
        have hrest : found read t = [] := by simpa [found, pieces, piecesFrom, hr] using h
        exact .cons (by simpa using hr) (ih hrest)
  · intro h
    have happ := found_append h
    rw [List.append_nil] at happ
    exact happ

end

namespace Text

section
variable {α : Type} {read : Reader Char α} {s t : Text} {c : Char} {a : α}

theorem mapFound_append {write : α → Text} (h : Refused read s t) :
    mapFound read write (s ++ t) = s ++ mapFound read write t := by
  rw [mapFound, pieces_append h, List.flatMap_append, List.flatMap_map]
  simp [mapFound]

theorem mapFound_of_refused {write : α → Text} (h : Refused read s []) : mapFound read write s = s := by
  have happend : mapFound read write (s ++ []) = s ++ mapFound read write [] := mapFound_append h
  rw [List.append_nil] at happend
  exact happend.trans (List.append_nil s)

theorem mapFound_found {write : α → Text} (h : read (c :: s ++ t) = some (a, t)) :
    mapFound read write (c :: s ++ t) = write a ++ mapFound read write t := by
  rw [mapFound, pieces_found h]
  rfl

theorem mapFoundM_append {m : Type → Type} [Monad m] [LawfulMonad m] {write : α → m Text}
    (h : Refused read s t) :
    mapFoundM read write (s ++ t) = (fun u => s ++ u) <$> mapFoundM read write t := by
  rw [mapFoundM, pieces_append h, mapFoundM]
  clear h
  induction s with
  | nil => simp
  | cons c s ih => simp [mapFoundM.go, ih]

theorem mapFoundM_of_refused {m : Type → Type} [Monad m] [LawfulMonad m] {write : α → m Text}
    (h : Refused read s []) : mapFoundM read write s = pure s := by
  have happend : mapFoundM read write (s ++ []) = (fun u => s ++ u) <$> mapFoundM read write [] :=
    mapFoundM_append h
  rw [List.append_nil] at happend
  rw [happend]
  exact (map_pure _ []).trans (by rw [List.append_nil])

theorem mapFoundM_split {m : Type → Type} [Monad m] [LawfulMonad m] {write : α → m Text} (h : Splits read s) :
    mapFoundM read write (s ++ t) = do
      let u ← mapFoundM read write s
      let v ← mapFoundM read write t
      return u ++ v := by
  rw [mapFoundM, h t, mapFoundM]
  induction pieces read s with
  | nil => simp [mapFoundM.go, mapFoundM]
  | cons p ps ih =>
    cases p <;> simp only [List.cons_append, mapFoundM.go, ih, bind_assoc, pure_bind, List.append_assoc]

theorem mapFoundM_found {m : Type → Type} [Monad m] {write : α → m Text}
    (h : read (c :: s ++ t) = some (a, t)) :
    mapFoundM read write (c :: s ++ t) = do
      let x ← write a
      let y ← mapFoundM read write t
      return x ++ y := by
  rw [mapFoundM, pieces_found h]
  rfl

theorem mapFoundM_front {m : Type → Type} [Monad m] {write : α → m Text} (hs : s ≠ [])
    (h : read (s ++ t) = some (a, t)) :
    mapFoundM read write (s ++ t) = do
      let x ← write a
      let y ← mapFoundM read write t
      return x ++ y := by
  obtain ⟨c, s, rfl⟩ := List.exists_cons_of_ne_nil hs
  exact mapFoundM_found h

end

theorem after?_eq_none_iff {lead t : Text} : after? lead t = none ↔ ¬ lead <+: t := by
  constructor
  · rintro h ⟨rest, rfl⟩
    simp [after?_append] at h
  · intro h
    cases hr : after? lead t with
    | none => rfl
    | some rest => exact absurd ⟨rest, (eq_append_of_after? hr).symm⟩ h

/-- The reader of a fixed text. -/
def literal (part : Text) : Reader Char Unit := fun t => (after? part t).map fun rest => ((), rest)

/-- No occurrence of `part` begins inside `s` when `t` follows. -/
abbrev Clear (part s t : Text) : Prop := Refused (literal part) s t

theorem literal_eq_none_iff {part t : Text} : literal part t = none ↔ ¬ part <+: t := by
  rw [literal, Option.map_eq_none_iff, after?_eq_none_iff]

theorem clear_iff {part s t : Text} :
    Clear part s t ↔ ∀ a b, s = a ++ b → b ≠ [] → ¬ part <+: b ++ t := by
  simp only [Clear, Refused, literal_eq_none_iff]

theorem refused_of_clear {α : Type} {read : Reader Char α} {part s t : Text} (hread : Begins read part)
    (h : Clear part s t) : Refused read s t := fun a b hab hb => hread (b ++ t) (clear_iff.1 h a b hab hb)

theorem begins_after? {α : Type} (part : Text) (f : Text → Option (α × Text)) :
    Begins (fun t => (after? part t).bind f) part := by
  intro t ht
  simp [after?_eq_none_iff.2 ht]

theorem clear_of_absent {part s : Text} (h : ¬ part <:+: s) : Clear part s [] := by
  rw [clear_iff]
  rintro a b rfl hb ⟨u, hu⟩
  exact h ⟨a, u, by simp [hu]⟩

/-- Where the first character of a part does not occur, no part begins. -/
theorem clear_of_notMem {part s : Text} {c : Char} (h : c ∉ s) (t : Text) :
    Clear (c :: part) s t := by
  rw [clear_iff]
  rintro a b rfl hb ⟨u, hu⟩
  cases b with
  | nil => exact hb rfl
  | cons d b =>
    have hd : c = d := by simpa using congrArg List.head? hu
    simp [hd] at h

/-- A part that does not occur in `s` begins there only if it goes on with what follows. -/
theorem clear_of_infix_free {c : Char} {part s t : Text} (h : ¬ c :: part <:+: s)
    (ht : ∀ d ∈ t.head?, d ∉ part) : Clear (c :: part) s t := by
  rw [clear_iff]
  rintro a b rfl hb ⟨u, hu⟩
  rcases List.append_eq_append_iff.1 hu with ⟨m, rfl, -⟩ | ⟨m, hm, rfl⟩
  · exact h ⟨a, m, by simp⟩
  · cases b with
    | nil => exact hb rfl
    | cons d b =>
      obtain ⟨rfl, rfl⟩ := List.cons.inj hm
      cases m with
      | nil => exact h ⟨a, [], by simp⟩
      | cons e m => exact ht e rfl (by simp)

/-- A part begins with what follows if its first character does not occur before. -/
theorem infix_of_append {part s t : Text} {c : Char} (h : c ∉ s) (hi : c :: part <:+: s ++ t) :
    c :: part <:+: t := by
  obtain ⟨a, b, hab⟩ := hi
  rw [List.append_assoc] at hab
  rcases List.append_eq_append_iff.1 hab with ⟨m, rfl, hm⟩ | ⟨m, rfl, rfl⟩
  · cases m with
    | nil => exact ⟨[], b, hm⟩
    | cons d m =>
      obtain ⟨rfl, -⟩ := List.cons.inj hm
      exact absurd (by simp) h
  · exact ⟨m, b, by simp⟩

/-- A part without a separator stands before it or behind it. -/
theorem infix_separated {part s t : Text} {c : Char} (h : c ∉ part) :
    part <:+: s ++ c :: t ↔ part <:+: s ∨ part <:+: t := by
  constructor
  · rintro ⟨a, b, hab⟩
    rcases List.append_eq_append_iff.1 hab with ⟨m, rfl, -⟩ | ⟨m, hm, hb⟩
    · exact .inl ⟨a, m, by simp⟩
    · cases m with
      | nil => exact .inl ⟨a, [], by simpa using hm⟩
      | cons d m =>
        obtain ⟨rfl, rfl⟩ := List.cons.inj hb
        rcases List.append_eq_append_iff.1 hm with ⟨n, -, rfl⟩ | ⟨n, -, hn⟩
        · exact absurd (by simp) h
        · cases n with
          | nil =>
            have hpart : part = c :: m := hn.symm
            exact absurd (by simp [hpart]) h
          | cons d n =>
            obtain ⟨-, rfl⟩ := List.cons.inj hn
            exact .inr ⟨n, b, rfl⟩
  · rintro (⟨a, b, rfl⟩ | ⟨a, b, rfl⟩)
    · exact ⟨a, b ++ c :: t, by simp⟩
    · exact ⟨s ++ c :: a, b, by simp⟩

theorem Clear.infix_free {part s t : Text} (hp : part ≠ []) (h : Clear part s t) : ¬ part <:+: s := by
  rintro ⟨a, b, rfl⟩
  exact clear_iff.1 h a (part ++ b) (by simp) (by simp [hp]) ⟨b ++ t, by simp⟩

theorem cut?_nil (t : Text) : cut? [] t = some ([], t) := by
  cases t <;> simp [cut?]

theorem cut?_append {sep s t : Text} (h : Clear sep s (sep ++ t)) :
    cut? sep (s ++ (sep ++ t)) = some (s, t) := by
  induction s with
  | nil =>
    cases sep with
    | nil => exact cut?_nil t
    | cons c sep =>
      have hs : after? (c :: sep) (c :: (sep ++ t)) = some t := after?_append (c :: sep) t
      simp [cut?, hs]
  | cons c s ih =>
    have hc : after? sep (c :: (s ++ (sep ++ t))) = none :=
      after?_eq_none_iff.2 (clear_iff.1 h [] (c :: s) rfl (by simp))
    simp [cut?, hc, ih h.tail]

theorem clear_of_cut? {sep t before rest : Text} (h : cut? sep t = some (before, rest)) :
    Clear sep before (sep ++ rest) := by
  rw [clear_iff]
  induction t generalizing before with
  | nil =>
    cases sep with
    | nil =>
      obtain ⟨rfl, rfl⟩ : before = [] ∧ rest = [] := by simpa [cut?, eq_comm] using h
      rintro a b hab hb
      exact absurd (List.append_eq_nil_iff.1 hab.symm).2 hb
    | cons c sep => simp [cut?] at h
  | cons c t ih =>
    have ht : c :: t = before ++ (sep ++ rest) := by simpa using eq_of_cut? h
    simp only [cut?] at h
    cases hs : after? sep (c :: t) with
    | some r =>
      obtain ⟨rfl, rfl⟩ : [] = before ∧ r = rest := by simpa [hs] using h
      rintro a b hab hb
      exact absurd (List.append_eq_nil_iff.1 hab.symm).2 hb
    | none =>
      rw [hs] at h
      obtain ⟨⟨b', r'⟩, hb', he⟩ := Option.map_eq_some_iff.1 h
      obtain ⟨rfl, rfl⟩ : c :: b' = before ∧ r' = rest := by simpa using he
      intro a b hab hb
      cases a with
      | nil =>
        have hb' : c :: b' = b := hab
        rw [← hb', ← ht]
        exact after?_eq_none_iff.1 hs
      | cons d a =>
        have hab' : b' = a ++ b := by simpa using (List.cons.inj hab).2
        exact ih hb' a b hab' hb

theorem cut?_eq_none_iff {sep t : Text} : cut? sep t = none ↔ ¬ sep <:+: t := by
  constructor
  · rintro h ⟨a, b, rfl⟩
    induction a with
    | nil =>
      cases sep with
      | nil => simp [cut?_nil] at h
      | cons c sep =>
        have hs : after? (c :: sep) (c :: (sep ++ b)) = some b := after?_append (c :: sep) b
        simp [cut?, hs] at h
    | cons c a ih =>
      simp only [List.cons_append, cut?] at h
      split at h
      · simp at h
      · exact ih (by simpa using h)
  · intro h
    cases hc : cut? sep t with
    | none => rfl
    | some p => exact absurd ⟨p.1, p.2, (eq_of_cut? hc).symm⟩ h

/-- A text without the part, or the first occurrence and what stands around it. -/
@[elab_as_elim]
theorem occurrence_induction {part : Text} (hp : part ≠ []) {motive : Text → Prop}
    (free : ∀ t, ¬ part <:+: t → motive t)
    (found : ∀ s t, Clear part s (part ++ t) → motive t → motive (s ++ (part ++ t))) (t : Text) :
    motive t := by
  induction hn : t.length using Nat.strongRecOn generalizing t with
  | ind n ih =>
    cases hcut : cut? part t with
    | none => exact free t (cut?_eq_none_iff.1 hcut)
    | some parts =>
      obtain ⟨before, rest⟩ := parts
      have ht : t = before ++ (part ++ rest) := by simpa using eq_of_cut? hcut
      have hlen : rest.length < n := by
        have hpos : 0 < part.length := List.length_pos_iff.2 hp
        subst ht
        simp at hn
        omega
      rw [ht]
      exact found before rest (clear_of_cut? hcut) (ih rest.length hlen rest rfl)

theorem includes_iff {t part : Text} : t.includes part = true ↔ part <:+: t := by
  rw [includes, Option.isSome_iff_ne_none, ne_eq, cut?_eq_none_iff, Classical.not_not]

section
variable {old new s t : Text}

theorem replace_append (h : Clear old s t) : replace old new (s ++ t) = s ++ replace old new t :=
  mapFound_append h

theorem replace_self (h : old ≠ []) : replace old new (old ++ t) = new ++ replace old new t := by
  cases old with
  | nil => exact absurd rfl h
  | cons c old =>
    have h : literal (c :: old) (c :: old ++ t) = some ((), t) := by
      rw [literal, after?_append]
      rfl
    exact mapFound_found h

theorem replace_of_infix_free (h : ¬ old <:+: t) : replace old new t = t := by
  have ht : replace old new (t ++ []) = t ++ replace old new [] := replace_append (clear_of_absent h)
  rw [List.append_nil] at ht
  rw [ht]
  exact List.append_nil t

/-- The first occurrence is replaced, and then those in the rest. -/
theorem replace_found (ho : old ≠ []) (h : Clear old s (old ++ t)) :
    replace old new (s ++ (old ++ t)) = s ++ (new ++ replace old new t) := by
  rw [replace_append h, replace_self ho]

end

end Text

end DocPages
