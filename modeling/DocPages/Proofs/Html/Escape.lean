import DocPages.Html.Basic
import DocPages.Proofs.Text.Takes

/-!
# Reading escaped text back

Each entity of markup is read as the character it stands for. Ampersands are escaped themselves, so escaped
text holds no entities but those that were put in, and reading them gives the text back.
-/

namespace DocPages.Html

/-- The entities of markup with their characters. -/
def marks : List (Text × Char) :=
  [("&amp;", '&'), ("&lt;", '<'), ("&gt;", '>'), ("&quot;", '"'), ("&#x27;", '\'')]

/-- One entity at the front of a text. -/
def entity? : Reader Char Char := fun t => marks.findSome? fun (e, c) => (Text.after? e t).map (c, ·)

/-- The text with the entities of markup read back. -/
def unescape (t : Text) : Text := Text.mapFound entity? (fun c => [c]) t

theorem entity?_of_mem {e : Text} {c : Char} (h : (e, c) ∈ marks) (t : Text) : entity? (e ++ t) = some (c, t) := by
  simp only [marks, List.mem_cons, List.not_mem_nil, or_false, Prod.mk.injEq] at h
  rcases h with ⟨rfl, rfl⟩ | ⟨rfl, rfl⟩ | ⟨rfl, rfl⟩ | ⟨rfl, rfl⟩ | ⟨rfl, rfl⟩ <;> rfl

/-- Entities begin with an ampersand. -/
theorem entity?_cons {c : Char} (h : c ≠ '&') (t : Text) : entity? (c :: t) = none := by
  have hne : ('&' = c) = False := eq_false fun he => h he.symm
  simp [entity?, marks, Text.after?, hne]

/-- A character is either an entity with its character or stands for itself. -/
theorem escapeChar_cases (c : Char) : (escapeChar c, c) ∈ marks ∨ escapeChar c = [c] ∧ c ≠ '&' := by
  unfold escapeChar
  split
  · exact .inl (by decide)
  · exact .inl (by decide)
  · exact .inl (by decide)
  · exact .inl (by decide)
  · exact .inl (by decide)
  · exact .inr ⟨rfl, by assumption⟩

/-- What reads each entity of markup as its character, and begins at ampersands only, reads escaped text back. -/
theorem mapFound_escape {α : Type} {read : Reader Char α} {write : α → Text}
    (hmark : ∀ {e c}, (e, c) ∈ marks → ∀ t, ∃ a, write a = [c] ∧ read (e ++ t) = some (a, t))
    (hother : ∀ {c}, c ≠ '&' → ∀ t, read (c :: t) = none) (t : Text) : Text.mapFound read write (escape t) = t := by
  have hstep (c : Char) (t : Text) :
      Text.mapFound read write (escapeChar c ++ t) = c :: Text.mapFound read write t := by
    rcases escapeChar_cases c with h | ⟨h, hc⟩
    · have hne : escapeChar c ≠ [] := fun hnil => by
        have hnil' : ∀ p ∈ marks, p.1 ≠ [] := by decide
        exact hnil' _ h hnil
      obtain ⟨a, hwrite, hread⟩ := hmark h t
      rw [Text.mapFound_front hne hread, hwrite]
      rfl
    · rw [h]
      exact Text.mapFound_append (.cons (hother hc t) (by simp [Refused]))
  induction t with
  | nil => rfl
  | cons c t ih =>
    have hfront : Text.mapFound read write (escapeChar c ++ escape t) = c :: Text.mapFound read write (escape t) :=
      hstep c (escape t)
    rw [ih] at hfront
    exact hfront

theorem unescape_escape (t : Text) : unescape (escape t) = t :=
  mapFound_escape (fun {_ c} h t => ⟨c, rfl, entity?_of_mem h t⟩) entity?_cons t

theorem escape_injective : Function.Injective escape := Function.LeftInverse.injective unescape_escape

/-- Readers of character references that know those of markup. They may know any others, such as `&copy;`. -/
structure References where
  read : Reader Char Text
  mark : ∀ {e c}, (e, c) ∈ marks → ∀ t, read (e ++ t) = some ([c], t)
  other : ∀ {c}, c ≠ '&' → ∀ t, read (c :: t) = none

namespace References

/-- The text with all references read. -/
def decode (r : References) (t : Text) : Text := Text.mapFound r.read id t

theorem decode_escape (r : References) (t : Text) : r.decode (escape t) = t :=
  mapFound_escape (fun h t => ⟨_, rfl, r.mark h t⟩) r.other t

/-- The references of markup and no others. -/
def ofMarks : References where
  read := fun t => (entity? t).map fun p => ([p.1], p.2)
  mark := fun h t => congrArg (Option.map _) (entity?_of_mem h t)
  other := fun h t => congrArg (Option.map _) (entity?_cons h t)

end References

/-- Letters and digits stand for themselves. -/
theorem escape_eq_self {t : Text} (h : ∀ c ∈ t, c.isAlphanum = true) : escape t = t := by
  induction t with
  | nil => rfl
  | cons c t ih =>
    obtain ⟨hc, ht⟩ := List.forall_mem_cons.1 h
    have hmarks : ∀ p ∈ marks, p.2.isAlphanum = false := by decide
    have hself : escapeChar c = [c] := by
      rcases escapeChar_cases c with hmem | ⟨hself, -⟩
      · have hbad := hmarks _ hmem
        rw [hc] at hbad
        cases hbad
      · exact hself
    have hrest := ih ht
    rw [escape] at hrest ⊢
    rw [List.flatMap_cons, hself, hrest]
    rfl

/-- Brackets and quotes do not stand in escaped text. -/
theorem notMem_escape {c : Char} (h : c ∈ ['<', '>', '"', '\'']) (t : Text) : c ∉ escape t := by
  simp only [escape, List.mem_flatMap, not_exists, not_and]
  intro d _ hd
  rcases escapeChar_cases d with he | ⟨he, -⟩
  · have hfree : ∀ p ∈ marks, (p.1.all fun d => d ∉ ['<', '>', '"', '\'']) = true := by decide
    exact absurd h (of_decide_eq_true (List.all_eq_true.1 (hfree _ he) c hd))
  · rw [he, List.mem_singleton] at hd
    subst hd
    simp only [List.mem_cons, List.not_mem_nil, or_false] at h
    rcases h with rfl | rfl | rfl | rfl <;> exact absurd he (by decide)

end DocPages.Html
