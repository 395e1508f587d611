import DocPages.Proofs.Shelf.Token
import DocPages.Proofs.Text.Change
import Mathlib.Data.List.Induction

/-!
# Tokens that are left

Putting the blocks back is a sequence of changes: newest first, and for each block its paragraph before its
token. A block that is framed, as elements of HTML are, is sealed against tokens. So a token is left exactly
if it stands in a text that comes to light after its own block has been put back.
-/

namespace DocPages.Shelf

/-- A token in a paragraph of its own. -/
def paragraph (n : Nat) : Text := "<p>" ++ token n ++ "</p>"

/-- The changes that put the blocks back. -/
def changes (blocks : List Text) : List Text.Change :=
  blocks.zipIdx.reverse.flatMap fun (block, n) => [⟨paragraph n, block⟩, ⟨token n, block⟩]

theorem changes_append (blocks : List Text) (block : Text) :
    changes (blocks ++ [block]) =
      [⟨paragraph blocks.length, block⟩, ⟨token blocks.length, block⟩] ++ changes blocks := by
  simp [changes, List.zipIdx_append]

theorem restore_eq_changeAll (blocks : List Text) (t : Text) :
    restore ⟨blocks⟩ t = Text.changeAll (changes blocks) t := by
  induction blocks using List.reverseRecOn generalizing t with
  | nil => rfl
  | append_singleton blocks block ih =>
    rw [restore_append, ih, changes_append, Text.changeAll_append]
    rfl

/-- What is looked for when blocks are put back. -/
def IsPlace (k : Text) : Prop := ∃ n, k = token n ∨ k = paragraph n

theorem paragraph_eq (n : Nat) : paragraph n = ['<', 'p', '>'] ++ token n ++ ['<', '/', 'p', '>'] := rfl

theorem ne_of_mem_token {n : Nat} {c d : Char} (h : c ∈ token n) (hd : d.isAlphanum = false) : c ≠ d := by
  rintro rfl
  rw [isAlphanum_of_mem_token h] at hd
  exact absurd hd (by decide)

theorem keys_isPlace : Text.Keys IsPlace := by
  have hblank (n : Nat) : ' ' ∉ token n := fun h => ne_of_mem_token h (by decide) rfl
  rintro k ⟨n, rfl | rfl⟩
  · exact ⟨token_ne_nil n, hblank n⟩
  · simp [paragraph_eq, hblank n]

theorem mem_or_suffix {a b p u : Text} {c : Char} (h : p ++ c :: u = a ++ b) : c ∈ a ∨ c :: u <:+ b := by
  rcases List.append_eq_append_iff.1 h with ⟨m, rfl, hm⟩ | ⟨m, rfl, hm⟩
  · cases m with
    | nil => exact .inr ⟨[], by simpa using hm⟩
    | cons d m =>
      obtain ⟨rfl, -⟩ := List.cons.inj hm
      exact .inl (by simp)
  · exact .inr ⟨m, hm.symm⟩

theorem prefix_or_mem {a b p u : Text} {c : Char} (h : p ++ c :: u = a ++ b) : p ++ [c] <+: a ∨ c ∈ b := by
  rcases List.append_eq_append_iff.1 h with ⟨m, rfl, hm⟩ | ⟨m, rfl, rfl⟩
  · cases m with
    | nil => exact .inr (by simp [← show c :: u = b from hm])
    | cons d m =>
      obtain ⟨rfl, -⟩ := List.cons.inj hm
      exact .inl ⟨m, by simp⟩
  · exact .inr (by simp)

/-- A character behind the first of a place is no square bracket, and an angle bracket there begins the end
tag of a paragraph. -/
theorem IsPlace.inner_left {p u : Text} {c : Char} (h : IsPlace (p ++ c :: u)) (hp : p ≠ []) :
    c ≠ '[' ∧ (c = '<' → u = ['/', 'p', '>']) := by
  have htoken {n : Nat} (hc : c ∈ token n) : c ≠ '[' ∧ (c = '<' → u = ['/', 'p', '>']) :=
    ⟨ne_of_mem_token hc (by decide), fun h => absurd h (ne_of_mem_token hc (by decide))⟩
  obtain ⟨n, hn | hn⟩ := h
  · have hc : c ∈ token n := by simp [← hn]
    exact htoken hc
  · obtain ⟨d, p, rfl⟩ := List.exists_cons_of_ne_nil hp
    have hrest : p ++ c :: u = (['p', '>'] ++ token n) ++ ['<', '/', 'p', '>'] := by
      rw [paragraph_eq] at hn
      simpa using (List.cons.inj hn).2
    rcases mem_or_suffix hrest with hc | hc
    · rcases List.mem_append.1 hc with hc | hc
      · simp at hc
        rcases hc with rfl | rfl <;> simp
      · exact htoken hc
    · simp only [List.suffix_cons_iff, List.suffix_nil] at hc
      rcases hc with hc | hc | hc | hc | hc <;> simp_all

/-- A character in front of the last of a place is no square bracket, and an angle bracket there ends the
start tag of a paragraph. -/
theorem IsPlace.inner_right {p u : Text} {c : Char} (h : IsPlace (p ++ c :: u)) (hu : u ≠ []) :
    c ≠ ']' ∧ (c = '>' → p = ['<', 'p']) := by
  have htoken {n : Nat} (hc : c ∈ token n) : c ≠ ']' ∧ (c = '>' → p = ['<', 'p']) :=
    ⟨ne_of_mem_token hc (by decide), fun h => absurd h (ne_of_mem_token hc (by decide))⟩
  obtain ⟨n, hn | hn⟩ := h
  · have hc : c ∈ token n := by simp [← hn]
    exact htoken hc
  · obtain ⟨u, d, rfl⟩ := List.eq_nil_or_concat u |>.resolve_left hu
    have hrest : p ++ c :: u = ['<', 'p', '>'] ++ (token n ++ ['<', '/', 'p']) := by
      rw [paragraph_eq] at hn
      have hn : (p ++ c :: u) ++ [d] = (['<', 'p', '>'] ++ (token n ++ ['<', '/', 'p'])) ++ ['>'] := by
        simpa using hn
      exact (List.append_inj' hn rfl).1
    rcases prefix_or_mem hrest with hc | hc
    · rcases p with _ | ⟨a, _ | ⟨b, _ | ⟨e, p⟩⟩⟩ <;>
        simp_all [List.cons_prefix_cons]
    · rcases List.mem_append.1 hc with hc | hc
      · exact htoken hc
      · simp at hc
        rcases hc with rfl | rfl | rfl <;> simp

/-- The text begins with a square bracket or a start tag. -/
def Opened (t : Text) : Prop := (∃ u, t = '[' :: u) ∨ ∃ c u, c ≠ '/' ∧ t = '<' :: c :: u

/-- The text ends with a square bracket or a tag, but not with the start tag of a paragraph. -/
def Closed (t : Text) : Prop := (∃ u, t = u ++ [']']) ∨ ∃ u c, c ≠ 'p' ∧ t = u ++ [c, '>']

/-- Whatever stands around the text, it neither ends nor begins a token or a paragraph there. -/
structure Framed (t : Text) : Prop where
  opened : Opened t
  closed : Closed t

theorem sealed_of_framed {t : Text} (h : Framed t) : Text.Sealed IsPlace t where
  front := by
    rintro p q hpq hp hq y hy
    obtain ⟨c, u, rfl⟩ := List.exists_cons_of_ne_nil hq
    obtain ⟨hsquare, hangle⟩ := hpq.inner_left hp
    rcases h.opened with ⟨v, rfl⟩ | ⟨d, v, hd, rfl⟩
    · exact hsquare (List.cons_prefix_cons.1 hy).1
    · obtain ⟨hc, hu⟩ := List.cons_prefix_cons.1 hy
      rw [hangle hc] at hu
      exact hd (List.cons_prefix_cons.1 hu).1.symm
  back := by
    intro p q hpq hp hq x hx
    obtain ⟨u, c, rfl⟩ := (List.eq_nil_or_concat p).resolve_left hp
    have hplace : IsPlace (u ++ c :: q) := by simpa using hpq
    obtain ⟨hsquare, hangle⟩ := hplace.inner_right hq
    obtain ⟨w, hw⟩ := hx
    rcases h.closed with ⟨v, rfl⟩ | ⟨v, d, hd, rfl⟩
    · have hends : (w ++ u) ++ [c] = (x ++ v) ++ [']'] := by simpa using hw
      exact hsquare (List.cons.inj (List.append_inj' hends rfl).2).1
    · have hends : (w ++ u) ++ [c] = (x ++ v ++ [d]) ++ ['>'] := by simpa using hw
      obtain ⟨hbefore, hc⟩ := List.append_inj' hends rfl
      rw [hangle (List.cons.inj hc).1] at hbefore
      have hlast : (w ++ ['<']) ++ ['p'] = (x ++ v) ++ [d] := by simpa using hbefore
      exact hd (List.cons.inj (List.append_inj' hlast rfl).2).1.symm

theorem mem_changes {blocks : List Text} {c : Text.Change} (h : c ∈ changes blocks) :
    IsPlace c.old ∧ c.new ∈ blocks := by
  obtain ⟨⟨block, m⟩, hmem, hc⟩ := List.mem_flatMap.1 h
  have hblock : block ∈ blocks := List.fst_mem_of_mem_zipIdx (List.mem_reverse.1 hmem)
  rcases List.mem_pair.1 hc with rfl | rfl
  · exact ⟨⟨m, .inr rfl⟩, hblock⟩
  · exact ⟨⟨m, .inl rfl⟩, hblock⟩

theorem sealed_changes {blocks : List Text} (h : ∀ b ∈ blocks, Framed b) :
    Text.SealedChanges IsPlace (changes blocks) := fun _ hc =>
  ⟨(mem_changes hc).1, sealed_of_framed (h _ (mem_changes hc).2)⟩

/-- A token is left when the blocks have been put back exactly if it stands in a text that comes to light,
apart from the places of the blocks that are still to be put back then. -/
theorem token_infix_restore_iff {blocks : List Text} (h : ∀ b ∈ blocks, Framed b) (t : Text) (n : Nat) :
    token n <:+: restore ⟨blocks⟩ t ↔
      ∃ rest u, Text.Surfaces (changes blocks) t rest u ∧ token n <:+: Text.strikeAll rest u := by
  rw [restore_eq_changeAll]
  exact Text.infix_changeAll_iff keys_isPlace (sealed_changes h) ⟨n, .inl rfl⟩ t

/-- If each block holds only tokens of older ones, no token of the shelf is left, whatever the text. -/
theorem not_token_infix_restore {blocks : List Text} (h : ∀ b ∈ blocks, Framed b)
    (holder : ∀ i b, blocks[i]? = some b → ∀ n, i ≤ n → n < blocks.length → ¬ token n <:+: b) {n : Nat}
    (hn : n < blocks.length) (t : Text) : ¬ token n <:+: restore ⟨blocks⟩ t := by
  induction blocks using List.reverseRecOn generalizing t with
  | nil => exact absurd hn (by simp)
  | append_singleton blocks block ih =>
    rw [restore_append]
    have hframed : ∀ b ∈ blocks, Framed b := fun b hb => h b (by simp [hb])
    have hbefore : ∀ i b, blocks[i]? = some b → ∀ n, i ≤ n → n < blocks.length + 1 → ¬ token n <:+: b := by
      intro i b hb n hin hlt
      have hi : i < blocks.length := (List.getElem?_eq_some_iff.1 hb).1
      exact holder i b (by rw [List.getElem?_append_left hi, hb]) n hin (by simpa using hlt)
    by_cases hlt : n < blocks.length
    · exact ih hframed (fun i b hb n hin hlt => hbefore i b hb n hin (by omega)) hlt _
    · have hlast : n = blocks.length := by
        have hle : n < blocks.length + 1 := by simpa using hn
        omega
      subst hlast
      have hself : ¬ token blocks.length <:+: block :=
        holder blocks.length block (by simp) blocks.length (by omega) (by simp)
      have hsealed : Text.Sealed IsPlace block := sealed_of_framed (h block (by simp))
      have hput : ¬ token blocks.length <:+: putBack blocks.length block t :=
        Text.not_infix_replace_self keys_isPlace ⟨_, .inl rfl⟩ hsealed hself _
      have hnone : ∀ c ∈ changes blocks, ¬ token blocks.length <:+: c.new := by
        intro c hc
        obtain ⟨i, hi⟩ := List.getElem?_of_mem (mem_changes hc).2
        have hlt : i < blocks.length := (List.getElem?_eq_some_iff.1 hi).1
        exact hbefore i c.new hi blocks.length (by omega) (by omega)
      rw [restore_eq_changeAll]
      exact Text.not_infix_changeAll keys_isPlace (sealed_changes hframed) ⟨_, .inl rfl⟩ hnone hput

end DocPages.Shelf
