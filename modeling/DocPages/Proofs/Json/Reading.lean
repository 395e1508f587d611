import DocPages.Json.Reader

/-!
# What the reader takes

The reader spends fuel on each level of nesting, but what it takes has nothing to do with fuel: an atom, a string, or
a bracket, blanks and what is read behind them. So a property that each of these steps hands on holds of all that
is read, whatever the fuel.
-/

namespace DocPages.Json

/-- Properties of values, of items with the bracket behind them and of members with the brace behind them, each with
the text in front of which they are read and the text that is left. Every step of the reader hands them on. -/
structure Steps (V : Text → Json → Text → Prop) (I : Text → List Json → Text → Prop)
    (M : Text → Members → Text → Prop) : Prop where
  atom {t rest : Text} {v : Json} : readAtom t = some (v, rest) → V t v rest
  string {t s rest : Text} : readString t = some (s, rest) → V ('"' :: t) (.str s) rest
  noItems {t rest : Text} : dropSpace t = ']' :: rest → V ('[' :: t) (.arr []) rest
  items {t rest : Text} {vs : List Json} : I (dropSpace t) vs rest → V ('[' :: t) (.arr vs) rest
  noMembers {t rest : Text} : dropSpace t = '\x7d' :: rest → V ('\x7b' :: t) (.obj []) rest
  members {t rest : Text} {ms : Members} : M (dropSpace t) ms rest → V ('\x7b' :: t) (.obj (Keyed.ofList ms)) rest
  lastItem {t r rest : Text} {v : Json} : V t v r → dropSpace r = ']' :: rest → I t [v] rest
  nextItem {t r u rest : Text} {v : Json} {vs : List Json} : V t v r → dropSpace r = ',' :: u →
    I (dropSpace u) vs rest → I t (v :: vs) rest
  lastMember {t k r w q rest : Text} {v : Json} : readString t = some (k, r) → dropSpace r = ':' :: w →
    V (dropSpace w) v q → dropSpace q = '\x7d' :: rest → M ('"' :: t) [(k, v)] rest
  nextMember {t k r w q u rest : Text} {v : Json} {ms : Members} : readString t = some (k, r) →
    dropSpace r = ':' :: w → V (dropSpace w) v q → dropSpace q = ',' :: u → M (dropSpace u) ms rest →
    M ('"' :: t) ((k, v) :: ms) rest

section
variable {fuel : Nat} {t rest : Text} {v : Json} {vs : List Json} {ms : Members}

/-- An array is empty, or has its items read behind the blanks that follow its bracket. -/
theorem read_array (h : Json.read (fuel + 1) ('[' :: t) = some (v, rest)) :
    (dropSpace t = ']' :: rest ∧ v = .arr []) ∨
      ∃ vs, readItems fuel (dropSpace t) = some (vs, rest) ∧ v = .arr vs := by
  rw [read.eq_3] at h
  split at h
  · next r hr =>
    obtain ⟨rfl, rfl⟩ := Prod.mk.inj (Option.some.inj h)
    exact .inl ⟨hr, rfl⟩
  · obtain ⟨⟨vs, r⟩, hr, he⟩ := Option.map_eq_some_iff.1 h
    obtain ⟨rfl, rfl⟩ := Prod.mk.inj he
    exact .inr ⟨vs, hr, rfl⟩

/-- An object is empty, or has its members read behind the blanks that follow its brace. -/
theorem read_object (h : Json.read (fuel + 1) ('\x7b' :: t) = some (v, rest)) :
    (dropSpace t = '\x7d' :: rest ∧ v = .obj []) ∨
      ∃ ms, readMembers fuel (dropSpace t) = some (ms, rest) ∧ v = .obj (Keyed.ofList ms) := by
  rw [read.eq_4] at h
  split at h
  · next r hr =>
    obtain ⟨rfl, rfl⟩ := Prod.mk.inj (Option.some.inj h)
    exact .inl ⟨hr, rfl⟩
  · obtain ⟨⟨ms, r⟩, hr, he⟩ := Option.map_eq_some_iff.1 h
    obtain ⟨rfl, rfl⟩ := Prod.mk.inj he
    exact .inr ⟨ms, hr, rfl⟩

/-- Items are a value, and then the bracket or a comma and further items. -/
theorem readItems_succ (h : readItems (fuel + 1) t = some (vs, rest)) :
    ∃ v r, Json.read fuel t = some (v, r) ∧
      ((dropSpace r = ']' :: rest ∧ vs = [v]) ∨
        ∃ u more, dropSpace r = ',' :: u ∧ readItems fuel (dropSpace u) = some (more, rest) ∧ vs = v :: more) := by
  rw [readItems.eq_2] at h
  obtain ⟨⟨v, r⟩, hv, h⟩ := Option.bind_eq_some_iff.1 h
  refine ⟨v, r, hv, ?_⟩
  dsimp only at h
  split at h
  · next x hx =>
    obtain ⟨rfl, rfl⟩ := Prod.mk.inj (Option.some.inj h)
    exact .inl ⟨hx, rfl⟩
  · next u hu =>
    obtain ⟨⟨more, x⟩, hmore, he⟩ := Option.bind_eq_some_iff.1 h
    obtain ⟨rfl, rfl⟩ := Prod.mk.inj (Option.some.inj he)
    exact .inr ⟨u, more, hu, hmore, rfl⟩
  · cases h

/-- Members are a name in quotes, a colon and a value, and then the brace or a comma and further members. -/
theorem readMembers_succ (h : readMembers (fuel + 1) t = some (ms, rest)) :
    ∃ u k r w v q, t = '"' :: u ∧ readString u = some (k, r) ∧ dropSpace r = ':' :: w ∧
      Json.read fuel (dropSpace w) = some (v, q) ∧
      ((dropSpace q = '\x7d' :: rest ∧ ms = [(k, v)]) ∨
        ∃ x more, dropSpace q = ',' :: x ∧ readMembers fuel (dropSpace x) = some (more, rest) ∧
          ms = (k, v) :: more) := by
  unfold readMembers at h
  split at h
  · next u =>
    obtain ⟨⟨k, r⟩, hk, h⟩ := Option.bind_eq_some_iff.1 h
    dsimp only at h
    split at h
    · next w hw =>
      obtain ⟨⟨v, q⟩, hv, h⟩ := Option.bind_eq_some_iff.1 h
      refine ⟨u, k, r, w, v, q, rfl, hk, hw, hv, ?_⟩
      dsimp only at h
      split at h
      · next x hx =>
        obtain ⟨rfl, rfl⟩ := Prod.mk.inj (Option.some.inj h)
        exact .inl ⟨hx, rfl⟩
      · next x hx =>
        obtain ⟨⟨more, y⟩, hmore, he⟩ := Option.bind_eq_some_iff.1 h
        obtain ⟨rfl, rfl⟩ := Prod.mk.inj (Option.some.inj he)
        exact .inr ⟨x, more, hx, hmore, rfl⟩
      · cases h
    · cases h
  · cases h

end

section
variable {V : Text → Json → Text → Prop} {I : Text → List Json → Text → Prop} {M : Text → Members → Text → Prop}

/-- The three properties for what is read with so much fuel. -/
structure Holds (V : Text → Json → Text → Prop) (I : Text → List Json → Text → Prop)
    (M : Text → Members → Text → Prop) (fuel : Nat) : Prop where
  value {t rest : Text} {v : Json} : Json.read fuel t = some (v, rest) → V t v rest
  items {t rest : Text} {vs : List Json} : readItems fuel t = some (vs, rest) → I t vs rest
  members {t rest : Text} {ms : Members} : readMembers fuel t = some (ms, rest) → M t ms rest

namespace Steps

variable {fuel : Nat} {t rest : Text} {v : Json} {vs : List Json} {ms : Members}

theorem value (h : Steps V I M) (ih : Holds V I M fuel) (hread : Json.read (fuel + 1) t = some (v, rest)) : V t v rest := by
  unfold Json.read at hread
  split at hread
  · cases ‹_›
  · obtain ⟨⟨s, r⟩, hs, he⟩ := Option.map_eq_some_iff.1 hread
    obtain ⟨rfl, rfl⟩ := Prod.mk.inj he
    exact h.string hs
  · rcases read_array hread with ⟨hclose, rfl⟩ | ⟨vs, hvs, rfl⟩
    · exact h.noItems hclose
    · obtain rfl := Nat.succ.inj ‹_›
      exact h.items (ih.items hvs)
  · rcases read_object hread with ⟨hclose, rfl⟩ | ⟨ms, hms, rfl⟩
    · exact h.noMembers hclose
    · obtain rfl := Nat.succ.inj ‹_›
      exact h.members (ih.members hms)
  · exact h.atom hread

/-- What each step hands on holds of all that is read. -/
theorem holds (h : Steps V I M) (fuel : Nat) : Holds V I M fuel := by
  induction fuel with
  | zero =>
    constructor
    · intro t rest v hread; cases hread
    · intro t rest vs hread; cases hread
    · intro t rest ms hread; cases hread
  | succ fuel ih =>
    refine ⟨h.value ih, fun hread => ?_, fun hread => ?_⟩
    · obtain ⟨v, r, hv, ⟨hclose, rfl⟩ | ⟨u, more, hcomma, hmore, rfl⟩⟩ := readItems_succ hread
      · exact h.lastItem (ih.value hv) hclose
      · exact h.nextItem (ih.value hv) hcomma (ih.items hmore)
    · obtain ⟨u, k, r, w, v, q, rfl, hk, hcolon, hv, hend⟩ := readMembers_succ hread
      rcases hend with ⟨hclose, rfl⟩ | ⟨x, more, hcomma, hmore, rfl⟩
      · exact h.lastMember hk hcolon (ih.value hv) hclose
      · exact h.nextMember hk hcolon (ih.value hv) hcomma (ih.members hmore)

end Steps

end

/-! ## Whole texts -/

/-- A text holds a value if one is read behind its first blanks and only blanks follow. -/
theorem read_of_parse? {t : Text} {v : Json} (h : parse? t = some v) :
    ∃ rest, Json.read (t.length + 1) (dropSpace t) = some (v, rest) ∧ dropSpace rest = [] := by
  obtain ⟨⟨w, rest⟩, hread, h⟩ := Option.bind_eq_some_iff.1 h
  dsimp only at h
  split at h
  · next hend =>
    obtain rfl := Option.some.inj h
    exact ⟨rest, hread, List.isEmpty_iff.1 hend⟩
  · cases h

end DocPages.Json
