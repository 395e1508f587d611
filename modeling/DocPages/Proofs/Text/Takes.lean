import DocPages.Proofs.Text.Search
import DocPages.Text.Class
import Mathlib.Data.List.Infix
import Mathlib.Data.List.TakeWhile

/-!
# Readers that take

A reader that accepts a place takes something off the front and leaves the rest as it is, so a search goes forward:
a text is searched by passing over its first character or by taking what stands in front.
-/

namespace DocPages

/-- The reader takes something off the front and leaves the rest as it is. -/
def Takes {β α : Type} (read : Reader β α) : Prop :=
  ∀ t a rest, read t = some (a, rest) → ∃ s, s ≠ [] ∧ t = s ++ rest

/-- A list that is searched is empty, or its first entry is passed over, or something is taken off its front. -/
@[elab_as_elim]
theorem Takes.induction {β α : Type} {read : Reader β α} (h : Takes read) {motive : List β → Prop}
    (nil : motive []) (kept : ∀ b t, read (b :: t) = none → motive t → motive (b :: t))
    (found : ∀ s t a, s ≠ [] → read (s ++ t) = some (a, t) → motive t → motive (s ++ t)) (t : List β) : motive t := by
  induction hn : t.length using Nat.strongRecOn generalizing t with
  | ind n ih =>
    cases t with
    | nil => exact nil
    | cons b t =>
      cases hr : read (b :: t) with
      | none => exact kept b t hr (ih t.length (by simp at hn; omega) t rfl)
      | some p =>
        obtain ⟨s, hs, ht⟩ := h _ p.1 p.2 hr
        have hpos : 0 < s.length := List.length_pos_iff.2 hs
        have hlen : p.2.length < n := by
          rw [← hn, ht, List.length_append]
          omega
        rw [ht]
        exact found s p.2 p.1 hs (ht ▸ hr) (ih p.2.length hlen p.2 rfl)

theorem pieces_kept {β α : Type} {read : Reader β α} {b : β} {t : List β} (h : read (b :: t) = none) :
    pieces read (b :: t) = .kept b :: pieces read t := by
  simp [pieces, piecesFrom, h]

theorem pieces_front {β α : Type} {read : Reader β α} {s t : List β} {a : α} (hs : s ≠ [])
    (h : read (s ++ t) = some (a, t)) : pieces read (s ++ t) = .found a :: pieces read t := by
  obtain ⟨b, s, rfl⟩ := List.exists_cons_of_ne_nil hs
  exact pieces_found h

theorem found_kept {β α : Type} {read : Reader β α} {b : β} {t : List β} (h : read (b :: t) = none) :
    found read (b :: t) = found read t := by
  rw [found, pieces_kept h]
  rfl

theorem found_front {β α : Type} {read : Reader β α} {s t : List β} {a : α} (hs : s ≠ [])
    (h : read (s ++ t) = some (a, t)) : found read (s ++ t) = a :: found read t := by
  rw [found, pieces_front hs h]
  rfl

/-- What is found has been read at some place. -/
theorem Takes.of_mem_found {β α : Type} {read : Reader β α} (h : Takes read) {t : List β} {a : α}
    (ha : a ∈ found read t) : ∃ s u, s ++ u <:+ t ∧ read (s ++ u) = some (a, u) := by
  induction t using h.induction with
  | nil => cases ha
  | kept b t hr ih =>
    obtain ⟨s, u, hsuffix, hread⟩ := ih (found_kept hr ▸ ha)
    exact ⟨s, u, hsuffix.trans (List.suffix_cons b t), hread⟩
  | found s t a' hs hr ih =>
    rw [found_front hs hr] at ha
    rcases List.mem_cons.1 ha with rfl | ha
    · exact ⟨s, t, List.suffix_refl _, hr⟩
    · obtain ⟨s', u, hsuffix, hread⟩ := ih ha
      exact ⟨s', u, hsuffix.trans (List.suffix_append s t), hread⟩

theorem takes_literal {part : Text} (hne : part ≠ []) : Takes (Text.literal part) := by
  intro t a rest h
  obtain ⟨u, hu, he⟩ := Option.map_eq_some_iff.1 h
  obtain rfl : u = rest := (Prod.mk.inj he).2
  exact ⟨part, hne, Text.eq_append_of_after? hu⟩

namespace Text

theorem mapFound_kept {α : Type} {read : Reader Char α} {write : α → Text} {c : Char} {t : Text}
    (h : read (c :: t) = none) : mapFound read write (c :: t) = c :: mapFound read write t := by
  rw [mapFound, pieces_kept h]
  rfl

theorem mapFound_front {α : Type} {read : Reader Char α} {write : α → Text} {s t : Text} {a : α} (hs : s ≠ [])
    (h : read (s ++ t) = some (a, t)) : mapFound read write (s ++ t) = write a ++ mapFound read write t := by
  rw [mapFound, pieces_front hs h]
  rfl

theorem mapFoundM_kept {α : Type} {m : Type → Type} [Monad m] {read : Reader Char α} {write : α → m Text} {c : Char}
    {t : Text} (h : read (c :: t) = none) :
    mapFoundM read write (c :: t) = do return c :: (← mapFoundM read write t) := by
  rw [mapFoundM, pieces_kept h]
  rfl

/-- A text that is read as a whole. -/
theorem mapFoundM_whole {α : Type} {m : Type → Type} [Monad m] [LawfulMonad m] {read : Reader Char α} {t : Text} {a : α}
    (hne : t ≠ []) (h : read t = some (a, [])) (write : α → m Text) : mapFoundM read write t = write a := by
  have h : read (t ++ []) = some (a, []) := by rwa [List.append_nil]
  have hnil : mapFoundM read write [] = pure [] := rfl
  calc mapFoundM read write t = mapFoundM read write (t ++ []) := by rw [List.append_nil]
    _ = (do
        let x ← write a
        let y ← mapFoundM read write []
        return x ++ y) := mapFoundM_front hne h
    _ = write a := by simp only [hnil, pure_bind, List.append_nil, bind_pure]

/-- A writer that keeps no state. -/
theorem mapFoundM_pure {α : Type} {m : Type → Type} [Monad m] [LawfulMonad m] (read : Reader Char α) (write : α → Text)
    (t : Text) : mapFoundM read (fun a => (pure (write a) : m Text)) t = pure (mapFound read write t) := by
  rw [mapFoundM, mapFound]
  induction pieces read t with
  | nil => rfl
  | cons p ps ih => cases p <;> simp [mapFoundM.go, ih]

theorem cut?_eq_some {sep t before rest : Text} (h : cut? sep t = some (before, rest)) :
    t = before ++ (sep ++ rest) := by
  simpa using eq_of_cut? h

/-- A cut at one character goes to its first occurrence. -/
theorem notMem_of_cut? {c : Char} {t before rest : Text} (h : cut? [c] t = some (before, rest)) : c ∉ before := by
  intro hc
  exact (clear_of_cut? h).infix_free (by simp) ((List.singleton_infix_iff c before).2 hc)

/-- The blanks in front of a text and the rest of it. -/
theorem exists_blanks (t : Text) : ∃ b, (∀ c ∈ b, DocPages.isBlank c = true) ∧ t = b ++ dropBlanks t :=
  ⟨t.takeWhile DocPages.isBlank, fun _ hc => List.mem_takeWhile_imp hc, (List.takeWhile_append_dropWhile).symm⟩

end Text

end DocPages
