import DocPages.Proofs.Shelf.Token
import Mathlib.Data.List.Induction

/-!
# Restoring nested fragments

A fragment is seen as its author sees it: stretches of text between references to earlier fragments. If the
stretches can supply neither the letter by which tokens are recognised nor the beginning of a paragraph
around one, then putting the blocks back newest first gives the recursive expansion of every reference, and
no token of the shelf is left.
-/

namespace DocPages.Shelf

/-- A stretch of text, or the token of a block, which may stand in a paragraph of its own. -/
inductive Part where
  | plain (t : Text)
  | ref (n : Nat) (inParagraph : Bool)
  deriving DecidableEq

/-- What stands in front of a token. -/
def opening (inParagraph : Bool) : Text := if inParagraph then ['<', 'p', '>'] else []

/-- What stands behind a token. -/
def closing (inParagraph : Bool) : Text := if inParagraph then ['<', '/', 'p', '>'] else []

def Part.write : Part → Text
  | plain t => t
  | ref n b => opening b ++ token n ++ closing b

def write (ps : List Part) : Text := ps.flatMap Part.write

/-- The beginnings of a paragraph. -/
def openings : List Text := [['<'], ['<', 'p'], ['<', 'p', '>']]

/-- A stretch that can become part of neither a token nor a paragraph around one. -/
def Part.Harmless : Part → Prop
  | plain t => 'F' ∉ t ∧ ∀ s ∈ openings, ¬ s <:+ t
  | ref _ _ => True

instance : DecidablePred Part.Harmless
  | .plain t => inferInstanceAs (Decidable ('F' ∉ t ∧ ∀ s ∈ openings, ¬ s <:+ t))
  | .ref _ _ => inferInstanceAs (Decidable True)

/-- Only tokens of blocks below `n` are referred to. -/
def RefsBelow (n : Nat) (ps : List Part) : Prop := ∀ k b, Part.ref k b ∈ ps → k < n

/-- The text of the parts, with the texts in `done` for the references to them. -/
def fill (done : List Text) (ps : List Part) : Text :=
  ps.flatMap fun
    | .plain t => t
    | .ref n b => (done[n]?).getD (Part.ref n b).write

/-- The blocks, each with its references expanded by the blocks before it. -/
def expansions (blocks : List (List Part)) : List Text :=
  blocks.foldl (fun done ps => done ++ [fill done ps]) []

/-- The text of the parts with all references expanded, however deep. -/
def expand (blocks : List (List Part)) (ps : List Part) : Text := fill (expansions blocks) ps

@[simp] theorem write_nil : write [] = [] := rfl
@[simp] theorem write_cons (p : Part) (ps : List Part) : write (p :: ps) = p.write ++ write ps := rfl
@[simp] theorem write_append (ps qs : List Part) : write (ps ++ qs) = write ps ++ write qs := by
  simp [write]

@[simp] theorem fill_nil (done : List Text) : fill done [] = [] := rfl
@[simp] theorem fill_append (done : List Text) (ps qs : List Part) :
    fill done (ps ++ qs) = fill done ps ++ fill done qs := by simp [fill]

@[simp] theorem length_expansions (blocks : List (List Part)) :
    (expansions blocks).length = blocks.length := by
  induction blocks using List.reverseRecOn with
  | nil => rfl
  | append_singleton bs ps ih => simpa [expansions, List.foldl_append] using ih

theorem expansions_append (blocks : List (List Part)) (ps : List Part) :
    expansions (blocks ++ [ps]) = expansions blocks ++ [expand blocks ps] := by
  simp [expansions, expand, List.foldl_append]

/-- Parts that refer to the first blocks only do not depend on the others. -/
theorem fill_append_of_refsBelow {done more : List Text} {ps : List Part}
    (h : RefsBelow done.length ps) : fill (done ++ more) ps = fill done ps := by
  induction ps with
  | nil => rfl
  | cons p ps ih =>
    have hps := ih fun k b hk => h k b (List.mem_cons_of_mem p hk)
    cases p with
    | plain t => simpa [fill] using hps
    | ref k b =>
      have hk : k < done.length := h k b (by simp)
      simpa [fill, List.getElem?_append_left hk] using hps

/-- The recursion behind `expansions`: the expansion of a block is its text with all references expanded. -/
theorem expansions_getElem? {blocks : List (List Part)}
    (h : ∀ i ps, blocks[i]? = some ps → RefsBelow i ps) {i : Nat} {ps : List Part}
    (hi : blocks[i]? = some ps) : (expansions blocks)[i]? = some (expand blocks ps) := by
  induction blocks using List.reverseRecOn generalizing i ps with
  | nil => simp at hi
  | append_singleton bs qs ih =>
    have hle : i < bs.length + 1 := by simpa using (List.getElem?_eq_some_iff.1 hi).1
    have hps : RefsBelow (expansions bs).length ps := by
      intro k b hk
      have hk := h i ps hi k b hk
      simp
      omega
    have he : expand (bs ++ [qs]) ps = expand bs ps := by
      simp only [expand, expansions_append]
      exact fill_append_of_refsBelow hps
    rw [expansions_append, he]
    by_cases hlt : i < bs.length
    · rw [List.getElem?_append_left (by simpa using hlt)]
      rw [List.getElem?_append_left hlt] at hi
      refine ih (fun j qs hj => ?_) hi
      exact h j qs (by rw [List.getElem?_append_left (List.getElem?_eq_some_iff.1 hj).1, hj])
    · obtain rfl : i = bs.length := by omega
      obtain rfl : qs = ps := by simpa using hi
      rw [List.getElem?_append_right (by simp)]
      simp

/-! ## Where tokens stand -/

/-- The letter F stands in a written text only where there is a reference. -/
theorem eq_ref_of_F {ps : List Part} (hs : ∀ p ∈ ps, p.Harmless) {a b : Text}
    (h : write ps = a ++ 'F' :: b) :
    ∃ ps₁ n w ps₂, ps = ps₁ ++ .ref n w :: ps₂ ∧ a = write ps₁ ++ opening w ++ ['D', 'O', 'C'] ∧
      b = tokenRest n ++ closing w ++ write ps₂ := by
  induction ps generalizing a with
  | nil => simp at h
  | cons p ps ih =>
    have hps : ∀ p ∈ ps, p.Harmless := fun q hq => hs q (List.mem_cons_of_mem p hq)
    rw [write_cons] at h
    rcases List.append_eq_append_iff.1 h with ⟨m, rfl, hm⟩ | ⟨m, hp, hm⟩
    · obtain ⟨ps₁, n, w, ps₂, rfl, rfl, hb⟩ := ih hps hm
      exact ⟨p :: ps₁, n, w, ps₂, rfl, by simp, hb⟩
    · cases m with
      | nil =>
        obtain ⟨ps₁, n, w, ps₂, -, ha, -⟩ := ih (a := []) hps hm.symm
        simp at ha
      | cons c m =>
        obtain ⟨rfl, rfl⟩ := List.cons.inj hm
        cases p with
        | plain t =>
          have ht : 'F' ∉ t := (hs _ List.mem_cons_self).1
          have hp' : t = a ++ 'F' :: m := hp
          simp [hp'] at ht
        | ref n w =>
          have hp' : (opening w ++ ['D', 'O', 'C']) ++ 'F' :: (tokenRest n ++ closing w) =
              a ++ 'F' :: m := by
            simpa [Part.write, token_eq] using hp
          have hl : 'F' ∉ opening w ++ ['D', 'O', 'C'] := by cases w <;> decide
          have hr : 'F' ∉ tokenRest n ++ closing w := by
            have hc : 'F' ∉ closing w := by cases w <;> decide
            simp [F_notMem_tokenRest, hc]
          obtain ⟨ha, -, hb⟩ := (List.append_cons_inj_of_notMem hl hr).1 hp'
          exact ⟨[], n, w, ps, rfl, by simp [← ha], by simp [← hb]⟩

/-- A token stands in a written text only where its block is referred to. -/
theorem eq_ref_of_token {ps : List Part} (hs : ∀ p ∈ ps, p.Harmless) {n : Nat} {a b : Text}
    (h : write ps = a ++ token n ++ b) :
    ∃ ps₁ w ps₂, ps = ps₁ ++ .ref n w :: ps₂ ∧ a = write ps₁ ++ opening w ∧
      b = closing w ++ write ps₂ := by
  have hF : write ps = (a ++ ['D', 'O', 'C']) ++ 'F' :: (tokenRest n ++ b) := by
    simpa [token_eq] using h
  obtain ⟨ps₁, k, w, ps₂, hps, ha, hb⟩ := eq_ref_of_F hs hF
  have hb' : tokenRest n ++ b = tokenRest k ++ (closing w ++ write ps₂) := by simpa using hb
  obtain ⟨rfl, hb''⟩ := tokenRest_append_inj hb'
  exact ⟨ps₁, w, ps₂, hps, List.append_cancel_right ha, hb''⟩

/-- A beginning of the text of a paragraph begins a paragraph as well. -/
theorem mem_openings_of_append {x y : Text} (h : x ++ y ∈ openings) (hx : x ≠ []) : x ∈ openings := by
  have hall : ∀ s ∈ openings, ∀ k < 4, s.take k ∈ [] :: openings := by decide
  have hlen : ∀ s ∈ openings, s.length < 4 := by decide
  have hk : x.length < 4 := by
    have := hlen _ h
    simp at this
    omega
  have hmem := hall _ h x.length hk
  rw [List.take_left] at hmem
  simpa [hx] using hmem

/-- No written text ends with the beginning of a paragraph. -/
theorem not_opening_suffix {ps : List Part} (hs : ∀ p ∈ ps, p.Harmless) :
    ∀ s ∈ openings, ¬ s <:+ write ps := by
  induction ps using List.reverseRecOn with
  | nil => decide
  | append_singleton ps p ih =>
    intro s hmem hsuf
    have ih := ih fun q hq => hs q (List.mem_append_left [p] hq)
    obtain ⟨r, hr⟩ : s <:+ write ps ++ p.write := by simpa using hsuf
    cases p with
    | plain t =>
      have ht : ∀ s ∈ openings, ¬ s <:+ t := (hs (.plain t) (by simp)).2
      rcases List.append_eq_append_iff.1 hr with ⟨m, hm, rfl⟩ | ⟨m, -, hm⟩
      · cases m with
        | nil => exact ht _ hmem (List.suffix_refl t)
        | cons c m =>
          have hopen : c :: m ∈ openings := mem_openings_of_append hmem (by simp)
          exact ih _ hopen ⟨r, hm.symm⟩
      · exact ht s hmem ⟨m, hm.symm⟩
    | ref n w =>
      have hend := congrArg List.reverse hr
      simp only [openings, List.mem_cons, List.not_mem_nil, or_false] at hmem
      rcases hmem with rfl | rfl | rfl <;> cases w <;>
        simp [Part.write, closing, token_eq, tokenRest] at hend

/-! ## Putting blocks back -/

/-- The parts with a reference replaced by others. -/
def swap (r : Part) (qs ps : List Part) : List Part := ps.flatMap fun p => if p = r then qs else [p]

/-- Replacing the text of a reference replaces the reference, where that text stands for nothing else. -/
theorem replace_write {r : Part} {qs ps : List Part} (hr : r.write ≠ [])
    (hclear : ∀ p ps', p :: ps' <:+ ps → p ≠ r → Text.Clear r.write p.write (write ps')) :
    Text.replace r.write (write qs) (write ps) = write (swap r qs ps) := by
  induction ps with
  | nil => rfl
  | cons p ps ih =>
    have ih := ih fun q ps' hsuf => hclear q ps' (hsuf.trans (List.suffix_cons p ps))
    rw [write_cons]
    by_cases hp : p = r
    · subst hp
      rw [Text.replace_self hr, ih]
      simp [swap]
    · rw [Text.replace_append (hclear p ps (List.suffix_refl _) hp), ih]
      simp [swap, hp]

/-- A part that refers to another block, or to none, holds no beginning of the token. -/
theorem clear_token {p : Part} {ps : List Part} (hs : ∀ q ∈ p :: ps, q.Harmless) {n : Nat}
    (hp : ∀ w, p ≠ .ref n w) : Text.Clear (token n) p.write (write ps) := by
  rw [Text.clear_iff]
  rintro a b hab hb ⟨u, hu⟩
  have h : write (p :: ps) = a ++ token n ++ u := by simp [hab, ← hu]
  obtain ⟨ps₁, w, ps₂, hps, ha, -⟩ := eq_ref_of_token hs h
  cases ps₁ with
  | nil => exact hp w (List.cons.inj hps).1
  | cons q ps₁ =>
    obtain ⟨rfl, -⟩ := List.cons.inj hps
    rw [ha] at hab
    simp [hb] at hab

/-- A part other than the reference in a paragraph holds no beginning of that paragraph. -/
theorem clear_paragraph {p : Part} {ps : List Part} (hs : ∀ q ∈ p :: ps, q.Harmless) {n : Nat}
    (hp : p ≠ .ref n true) : Text.Clear (Part.ref n true).write p.write (write ps) := by
  rw [Text.clear_iff]
  rintro a b hab hb ⟨u, hu⟩
  have h : write (p :: ps) = (a ++ opening true) ++ token n ++ (closing true ++ u) := by
    rw [write_cons, hab, List.append_assoc, ← hu]
    simp [Part.write]
  obtain ⟨ps₁, w, ps₂, hps, ha, -⟩ := eq_ref_of_token hs h
  cases w with
  | false =>
    have hps₁ : ∀ q ∈ ps₁, q.Harmless := fun q hq => hs q (hps ▸ List.mem_append_left _ hq)
    have ha : write ps₁ = a ++ opening true := by simpa [opening] using ha.symm
    exact not_opening_suffix hps₁ (opening true) (by decide) ⟨a, ha.symm⟩
  | true =>
    have ha := List.append_cancel_right ha
    cases ps₁ with
    | nil => exact hp (List.cons.inj hps).1
    | cons q ps₁ =>
      obtain ⟨rfl, -⟩ := List.cons.inj hps
      rw [ha] at hab
      simp [hb] at hab

/-- Whether a part refers to block `n`. -/
def Part.IsRefTo (n : Nat) : Part → Prop
  | plain _ => False
  | ref k _ => k = n

instance (n : Nat) : DecidablePred (Part.IsRefTo n)
  | .plain _ => inferInstanceAs (Decidable False)
  | .ref k _ => inferInstanceAs (Decidable (k = n))

/-- The parts with those of block `n` in place of every reference to it. -/
def putIn (n : Nat) (qs ps : List Part) : List Part :=
  ps.flatMap fun p => if p.IsRefTo n then qs else [p]

theorem mem_putIn {n : Nat} {p : Part} {qs ps : List Part} (h : p ∈ putIn n qs ps) :
    (p ∈ ps ∧ ¬ p.IsRefTo n) ∨ p ∈ qs := by
  obtain ⟨q, hq, hp⟩ := List.mem_flatMap.1 h
  by_cases hr : q.IsRefTo n
  · exact .inr (by simpa [hr] using hp)
  · obtain rfl : p = q := by simpa [hr] using hp
    exact .inl ⟨hq, hr⟩

theorem swap_of_notMem {r : Part} {qs ps : List Part} (h : r ∉ ps) : swap r qs ps = ps := by
  induction ps with
  | nil => rfl
  | cons p ps ih =>
    have hp : p ≠ r := fun hp => h (hp ▸ List.mem_cons_self)
    have hps := ih fun hr => h (List.mem_cons_of_mem p hr)
    simp only [swap] at hps
    simp [swap, hp, hps]

theorem notMem_swap {r : Part} {qs ps : List Part} (h : r ∉ qs) : r ∉ swap r qs ps := by
  intro hr
  obtain ⟨p, -, hp⟩ := List.mem_flatMap.1 hr
  by_cases he : p = r
  · exact h (by simpa [he] using hp)
  · rw [if_neg he] at hp
    exact he (List.mem_singleton.1 hp).symm

theorem RefsBelow.notMem {n : Nat} {qs : List Part} (h : RefsBelow n qs) (b : Bool) : .ref n b ∉ qs :=
  fun hr => Nat.lt_irrefl n (h n b hr)

/-- References in paragraphs are replaced first, and then the others. -/
theorem swap_swap {n : Nat} {qs ps : List Part} (h : RefsBelow n qs) :
    swap (.ref n false) qs (swap (.ref n true) qs ps) = putIn n qs ps := by
  rw [swap, swap, List.flatMap_assoc, putIn]
  congr 1
  funext p
  have hqs : qs.flatMap (fun p => if p = .ref n false then qs else [p]) = qs :=
    swap_of_notMem (h.notMem false)
  cases p with
  | plain t => simp [Part.IsRefTo]
  | ref k b =>
    by_cases hk : k = n
    · cases b <;> simp [Part.IsRefTo, hk, hqs]
    · simp [Part.IsRefTo, hk]

theorem putBack_write {n : Nat} {qs ps : List Part} (hqs : ∀ q ∈ qs, q.Harmless)
    (hps : ∀ p ∈ ps, p.Harmless) (hn : RefsBelow n qs) :
    putBack n (write qs) (write ps) = write (putIn n qs ps) := by
  have hin : ("<p>" ++ token n ++ "</p>" : Text) = (Part.ref n true).write := by
    simp [Part.write, opening, closing]
  have hout : token n = (Part.ref n false).write := by simp [Part.write, opening, closing]
  have hne : ∀ b, (Part.ref n b).write ≠ [] := by simp [Part.write, token_ne_nil]
  have hswap : ∀ p ∈ swap (.ref n true) qs ps, p.Harmless := by
    intro p hp
    obtain ⟨q, hq, hp⟩ := List.mem_flatMap.1 hp
    split at hp
    · exact hqs p hp
    · exact List.mem_singleton.1 hp ▸ hps q hq
  rw [putBack, hin, replace_write (hne true), hout, replace_write (hne false), swap_swap hn]
  · intro p ps' hsuf hp
    rw [← hout]
    refine clear_token (fun q hq => hswap q (hsuf.subset hq)) fun w => ?_
    cases w with
    | false => exact hp
    | true =>
      rintro rfl
      exact notMem_swap (hn.notMem true) (hsuf.subset List.mem_cons_self)
  · intro p ps' hsuf hp
    exact clear_paragraph (fun q hq => hps q (hsuf.subset hq)) hp

/-- Filling in the last of several expanded blocks can be done part by part. -/
theorem fill_putIn {done : List Text} {qs ps : List Part} :
    fill done (putIn done.length qs ps) = fill (done ++ [fill done qs]) ps := by
  induction ps with
  | nil => rfl
  | cons p ps ih =>
    have hsplit : putIn done.length qs (p :: ps) =
        (if p.IsRefTo done.length then qs else [p]) ++ putIn done.length qs ps := rfl
    have hcons : ∀ more, fill more (p :: ps) = fill more [p] ++ fill more ps := by simp [fill]
    rw [hsplit, fill_append, ih, hcons]
    congr 1
    cases p with
    | plain t => simp [Part.IsRefTo, fill]
    | ref k b =>
      rcases Nat.lt_trichotomy k done.length with hk | hk | hk
      · simp [Part.IsRefTo, fill, Nat.ne_of_lt hk, List.getElem?_append_left hk]
      · simp [Part.IsRefTo, fill, hk]
      · have hl : (done ++ [fill done qs])[k]? = none := by simp; omega
        have hd : done[k]? = none := by simp; omega
        simp [Part.IsRefTo, Nat.ne_of_gt hk, fill] at hl hd ⊢
        simp [hl, hd]

/-- What restoring comes to: parts without any reference to the blocks. -/
theorem restore_write {blocks : List (List Part)} {ps : List Part}
    (safe : ∀ qs ∈ blocks, ∀ q ∈ qs, q.Harmless) (hps : ∀ p ∈ ps, p.Harmless)
    (older : ∀ i qs, blocks[i]? = some qs → RefsBelow i qs) :
    ∃ ps', restore ⟨blocks.map write⟩ (write ps) = write ps' ∧ write ps' = expand blocks ps ∧
      (∀ p ∈ ps', p.Harmless) ∧ ∀ k b, .ref k b ∈ ps' → .ref k b ∈ ps ∧ blocks.length ≤ k := by
  induction blocks using List.reverseRecOn generalizing ps with
  | nil =>
    refine ⟨ps, rfl, ?_, hps, fun k b hk => ⟨hk, Nat.zero_le k⟩⟩
    induction ps with
    | nil => rfl
    | cons p ps ih =>
      have ih := ih fun q hq => hps q (List.mem_cons_of_mem p hq)
      cases p <;> simp_all [expand, expansions, fill, Part.write]
  | append_singleton bs qs ih =>
    have hqs : ∀ q ∈ qs, q.Harmless := safe qs (by simp)
    have hn : RefsBelow bs.length qs := older bs.length qs (by simp)
    have hin : ∀ p ∈ putIn bs.length qs ps, p.Harmless := by
      intro p hp
      rcases mem_putIn hp with ⟨hp, -⟩ | hp
      · exact hps p hp
      · exact hqs p hp
    obtain ⟨ps', hrestore, hfill, hsafe, hrefs⟩ := ih
      (fun rs hrs => safe rs (List.mem_append_left [qs] hrs)) hin
      (fun i rs hi => older i rs
        (by rw [List.getElem?_append_left (List.getElem?_eq_some_iff.1 hi).1, hi]))
    refine ⟨ps', ?_, ?_, hsafe, ?_⟩
    · rw [← hrestore, ← putBack_write hqs hps hn]
      simpa using restore_append (bs.map write) (write qs) (write ps)
    · have hlen : bs.length = (expansions bs).length := (length_expansions bs).symm
      rw [hfill, expand, expand, expansions_append, hlen, fill_putIn]
      rfl
    · intro k b hk
      obtain ⟨hmem, hle⟩ := hrefs k b hk
      rcases mem_putIn hmem with ⟨hp, hne⟩ | hq
      · have hne : k ≠ bs.length := hne
        refine ⟨hp, ?_⟩
        simp
        omega
      · have := hn k b hq
        omega

/-- Storing fragments on a shelf adds them in order, and each one's place names its number. -/
theorem mapM_store (blocks : List Text) (s : Shelf) :
    blocks.mapM store s = ((List.range' s.size blocks.length).map place, ⟨s.blocks ++ blocks⟩) := by
  induction blocks generalizing s with
  | nil => simp; rfl
  | cons block blocks ih =>
    have hstep : (block :: blocks).mapM store s =
        let rest := blocks.mapM store (store block s).2
        (place s.size :: rest.1, rest.2) := by
      rw [List.mapM_cons]
      rfl
    rw [hstep, ih]
    simp [store, size, List.range'_succ]

/-- For fragments that refer to earlier ones only, between harmless stretches of text, restoring gives the
full expansion of a text with such references, and no token of a block is left in it. References to blocks
that were never stored stay as they are written. -/
theorem restore_of_harmless (blocks : List (List Part)) (ps : List Part)
    (safe : ∀ qs ∈ blocks, ∀ q ∈ qs, q.Harmless) (hps : ∀ p ∈ ps, p.Harmless)
    (older : ∀ i qs, blocks[i]? = some qs → RefsBelow i qs) :
    let s := ((blocks.map write).mapM store empty).2
    s.restore (write ps) = expand blocks ps ∧ s.leftovers (s.restore (write ps)) = [] ∧
      ∀ (i : Nat) (qs : List Part), blocks[i]? = some qs →
        (expansions blocks)[i]? = some (expand blocks qs) := by
  intro s
  have hs : s = ⟨blocks.map write⟩ := by simp [s, mapM_store, empty]
  obtain ⟨ps', hrestore, hexpand, hsafe, hrefs⟩ := restore_write safe hps older
  refine ⟨?_, ?_, fun i qs hi => expansions_getElem? older hi⟩
  · rw [hs, hrestore, hexpand]
  · rw [hs, hrestore, leftovers, List.filter_eq_nil_iff]
    intro t ht hincl
    obtain ⟨n, hn, rfl⟩ := List.mem_map.1 ht
    obtain ⟨a, b, hab⟩ := Text.includes_iff.1 hincl
    obtain ⟨ps₁, w, ps₂, rfl, -, -⟩ := eq_ref_of_token hsafe hab.symm
    have hle := (hrefs n w (by simp)).2
    have hlt : n < blocks.length := by simpa [size] using hn
    omega

/-- A block that is referred to three times, twice from inside another one. -/
theorem restore_of_harmless_nested :
    let blocks : List (List Part) := [[.plain "<b>x</b>"],
      [.plain "<div>", .ref 0 true, .ref 0 false, .plain "</div>"]]
    let ps : List Part := [.ref 1 true, .plain " - ", .ref 0 false]
    let s := ((blocks.map write).mapM store empty).2
    s.restore (write ps) = "<div><b>x</b><b>x</b></div> - <b>x</b>".toList ∧
      s.leftovers (s.restore (write ps)) = [] := by
  intro blocks ps s
  have older : ∀ i qs, blocks[i]? = some qs → RefsBelow i qs := by
    intro i qs hi k b hk
    match i with
    | 0 => obtain rfl := Option.some.inj hi; simp at hk
    | 1 => obtain rfl := Option.some.inj hi; simp at hk; omega
    | i + 2 => simp [blocks] at hi
  have h := restore_of_harmless blocks ps (by decide) (by decide) older
  exact ⟨h.1.trans (by decide), h.2.1⟩

end DocPages.Shelf
