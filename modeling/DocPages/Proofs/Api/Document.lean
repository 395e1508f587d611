import DocPages.Proofs.Api.Tags
import DocPages.Proofs.Keyed

/-!
# Documents of well-formed tags

A document is a first stretch of text and then tags, each with the text behind it. The pass over a kind meets
the tags of that kind and nothing else, so each tag gives one card. Cards are numbered as they are made, kind
by kind, and within a kind in the order of the document.
-/

namespace DocPages.Api

/-! ## The cards of several tags -/

/-- The cards of tags, which are given with their positions. -/
def cards (maxDepth : Int) (ps : List (Tagged × Nat)) : StateM IdSupply (List (Option Html)) :=
  ps.mapM fun p => p.1.component.render maxDepth p.1.value

/-- From one state of the work to another, every tag gives a card, which is stored; no issue arises. -/
def Stored (maxDepth : Int) (ps : List (Tagged × Nat)) (w w' : Work) : Prop :=
  ∃ hs : List Html, hs.length = ps.length ∧ (cards maxDepth ps).run w.ids = (hs.map some, w'.ids) ∧
    w'.shelf.blocks = w.shelf.blocks ++ hs.map Html.write ∧ w'.issues = w.issues

section
variable {maxDepth : Int} {ps qs : List (Tagged × Nat)} {w w' w'' : Work}

theorem Stored.nil : Stored maxDepth [] w w := ⟨[], rfl, rfl, by simp, rfl⟩

theorem Stored.append (h : Stored maxDepth ps w w') (h' : Stored maxDepth qs w' w'') :
    Stored maxDepth (ps ++ qs) w w'' := by
  obtain ⟨hs, hlen, hrun, hblocks, hissues⟩ := h
  obtain ⟨hs', hlen', hrun', hblocks', hissues'⟩ := h'
  refine ⟨hs ++ hs', by simp [hlen, hlen'], ?_, by simp [hblocks, hblocks'], hissues'.trans hissues⟩
  have hcards : cards maxDepth (ps ++ qs) = do
      let a ← cards maxDepth ps
      let b ← cards maxDepth qs
      return a ++ b := List.mapM_append
  rw [hcards, StateT.run_bind, hrun]
  simp only [bind]
  rw [List.map_append]
  have hsecond := congrArg (fun r : List (Option Html) × IdSupply => (hs.map some ++ r.1, r.2)) hrun'
  exact hsecond

theorem Stored.size (h : Stored maxDepth ps w w') : w'.shelf.size = w.shelf.size + ps.length := by
  obtain ⟨hs, hlen, -, hblocks, -⟩ := h
  simp [Shelf.size, hblocks, hlen]

end

/-- A payload that shows as a card is stored, and its place is kept. -/
theorem place_shown {maxDepth : Int} {c : Component} {raw : Text} {v : Json} {w : Work} {card : Html} {ids : IdSupply}
    (hread : Json.parse? raw = some v) (hrun : (c.render maxDepth v).run w.ids = (some card, ids)) :
    (place maxDepth c (.payload raw)).run w =
      (placed c w.shelf.size, ⟨ids, ⟨w.shelf.blocks ++ [card.write]⟩, w.issues⟩) := by
  have hcard : Work.withIds (c.render maxDepth v) w = (some card, { w with ids }) := by
    have h : c.render maxDepth v w.ids = (some card, ids) := hrun
    simp only [Work.withIds, h]
  have hpayload : payload? raw = some v := by simp [payload?, hread]
  simp only [place, hpayload, StateT.run_bind]
  simp only [StateT.run, hcard, bind, placed]
  split <;> rfl

/-- A tag gives one card, at the next free number. -/
theorem place_payload {maxDepth : Int} {p : Tagged × Nat} (h : p.1.WellFormed maxDepth) (w : Work) :
    ∃ w', Stored maxDepth [p] w w' ∧
      (place maxDepth p.1.component (.payload p.1.payload)).run w =
        (placed p.1.component w.shelf.size, w') := by
  have hsome : ((p.1.component.render maxDepth p.1.value).run w.ids).1.isSome = true :=
    (isSome_render p.1.component maxDepth p.1.value w.ids IdSupply.fresh).trans h.shows
  cases hrun : (p.1.component.render maxDepth p.1.value).run w.ids with
  | mk o ids =>
    rw [hrun] at hsome
    obtain ⟨card, rfl⟩ := Option.isSome_iff_exists.1 hsome
    refine ⟨⟨ids, ⟨w.shelf.blocks ++ [card.write]⟩, w.issues⟩, ⟨[card], rfl, ?_, rfl, rfl⟩, place_shown h.reads hrun⟩
    have hone : cards maxDepth [p] = do
        let o ← p.1.component.render maxDepth p.1.value
        return [o] := by simp [cards]
    rw [hone, StateT.run_bind, hrun]
    rfl

/-! ## The passes -/

/-- The tags with their positions, and the texts behind them, after the passes over the kinds `done`. -/
def document (done : List Component) (number : Nat → Nat) (ps : List (Tagged × Nat)) : Text :=
  ps.flatMap fun p =>
    (if p.1.component ∈ done then placed p.1.component (number p.2) else p.1.write) ++ p.1.after

def ofKind (c : Component) (ps : List (Tagged × Nat)) : List (Tagged × Nat) :=
  ps.filter fun p => p.1.component = c

theorem head_placed (c : Component) (n : Nat) : (placed c n).head? = some '\n' := by
  unfold placed
  split <;> rfl

theorem head_write (t : Tagged) : t.write.head? = some '<' := rfl

/-- A stretch of text is followed by a tag or by what has taken its place. -/
theorem head_document {done : List Component} {number : Nat → Nat} {ps : List (Tagged × Nat)} :
    ∀ x ∈ (document done number ps).head?, x ∈ ['<', '\n', '\x7d'] := by
  cases ps with
  | nil => simp [document]
  | cons p ps =>
    intro x hx
    by_cases hp : p.1.component ∈ done
    · have hx : x = '\n' := by
        simpa [document, hp, head_placed, eq_comm] using hx
      simp [hx]
    · have hx : x = '<' := by
        simpa [document, hp, head_write, eq_comm] using hx
      simp [hx]

theorem refused_calm {s t : Text} (h : Calm s) (ht : ∀ x ∈ t.head?, x ∈ ['<', '\n', '\x7d'])
    (c : Component) : Refused (occurrence? c) s t :=
  refused_of_clear (clear_of_calm h ht c)

theorem placeAll_append {maxDepth : Int} {c : Component} {s t t' : Text} {w w' : Work}
    (h : Refused (occurrence? c) s t) (hrun : (placeAll maxDepth c t).run w = (t', w')) :
    (placeAll maxDepth c (s ++ t)).run w = (s ++ t', w') := by
  rw [placeAll, Text.mapFoundM_append h]
  have happ := congrArg (fun r : Text × Work => (s ++ r.1, r.2)) hrun
  exact happ

/-- What stands for an occurrence, and then what the search makes of the rest. -/
theorem placeAll_found {maxDepth : Int} {c : Component} {o : Occurrence} {t rest x t' : Text} {w w' w'' : Work}
    (hread : occurrence? c (t ++ rest) = some (o, rest)) (ht : t ≠ [])
    (hplace : (place maxDepth c o).run w = (x, w')) (hrun : (placeAll maxDepth c rest).run w' = (t', w'')) :
    (placeAll maxDepth c (t ++ rest)).run w = (x ++ t', w'') := by
  obtain ⟨b, s, rfl⟩ := List.exists_cons_of_ne_nil ht
  rw [placeAll, Text.mapFoundM_found hread, StateT.run_bind, hplace]
  have happ := congrArg (fun r : Text × Work => (x ++ r.1, r.2)) hrun
  exact happ

theorem placeAll_write {maxDepth : Int} {t : Tagged} (h : t.WellFormed maxDepth)
    {rest x t' : Text} {w w' w'' : Work}
    (hplace : (place maxDepth t.component (.payload t.payload)).run w = (x, w'))
    (hrun : (placeAll maxDepth t.component rest).run w' = (t', w'')) :
    (placeAll maxDepth t.component (t.write ++ rest)).run w = (x ++ t', w'') :=
  placeAll_found (occurrence?_write t h.reads rest) (List.cons_ne_nil '<' _) hplace hrun

theorem document_cons (done : List Component) (number : Nat → Nat) (p : Tagged × Nat)
    (ps : List (Tagged × Nat)) :
    document done number (p :: ps) =
      (if p.1.component ∈ done then placed p.1.component (number p.2) else p.1.write) ++
        (p.1.after ++ document done number ps) := by
  simp [document]

/-- The pass over a kind shows the tags of that kind, in their order, and leaves the others alone. -/
theorem placeAll_document {maxDepth : Int} {c : Component} {done : List Component} (hc : c ∉ done)
    (number : Nat → Nat) {ps : List (Tagged × Nat)} (h : ∀ p ∈ ps, p.1.WellFormed maxDepth) (w : Work)
    (hn : (ofKind c ps).map (fun p => number p.2) = List.range' w.shelf.size (ofKind c ps).length) :
    ∃ w', Stored maxDepth (ofKind c ps) w w' ∧
      (placeAll maxDepth c (document done number ps)).run w =
        (document (done ++ [c]) number ps, w') := by
  induction ps generalizing w with
  | nil => exact ⟨w, Stored.nil, rfl⟩
  | cons p ps ih =>
    have hp : p.1.WellFormed maxDepth := h p (by simp)
    have hps : ∀ q ∈ ps, q.1.WellFormed maxDepth := fun q hq => h q (by simp [hq])
    have hafter : Refused (occurrence? c) p.1.after (document done number ps) :=
      refused_calm hp.calm_after head_document c
    rw [document_cons, document_cons]
    by_cases hk : p.1.component = c
    · subst hk
      have hkind : ofKind p.1.component (p :: ps) = [p] ++ ofKind p.1.component ps := by
        simp [ofKind]
      rw [hkind] at hn ⊢
      obtain ⟨hnum, hn⟩ : number p.2 = w.shelf.size ∧
          (ofKind p.1.component ps).map (fun p => number p.2) =
            List.range' (w.shelf.size + 1) (ofKind p.1.component ps).length := by
        simpa [List.range'_succ] using hn
      obtain ⟨w', hstored, hplace⟩ := place_payload hp w
      rw [show w.shelf.size + 1 = w'.shelf.size from hstored.size.symm] at hn
      obtain ⟨w'', hrest, hrun⟩ := ih hps w' hn
      refine ⟨w'', hstored.append hrest, ?_⟩
      rw [if_neg hc, if_pos (by simp), hnum]
      exact placeAll_write hp hplace (placeAll_append hafter hrun)
    · have hkind : ofKind c (p :: ps) = ofKind c ps := by simp [ofKind, hk]
      rw [hkind] at hn ⊢
      obtain ⟨w', hstored, hrun⟩ := ih hps w hn
      refine ⟨w', hstored, ?_⟩
      by_cases hd : p.1.component ∈ done
      · rw [if_pos hd, if_pos (by simp [hd])]
        exact placeAll_append (refused_of_clear (clear_placed c _ _ _)) (placeAll_append hafter hrun)
      · rw [if_neg hd, if_neg (by simp [hd, hk])]
        exact placeAll_append (refused_of_clear (clear_write hp.calm_payload (Ne.symm hk) _))
          (placeAll_append hafter hrun)

theorem document_before (number : Nat → Nat) (ts : List Tagged) :
    document [] number ts.zipIdx = ts.flatMap fun t => t.write ++ t.after := by
  conv => rhs; rw [← List.zipIdx_map_fst 0 ts, List.flatMap_map]
  simp [document]

theorem document_behind (number : Nat → Nat) (ps : List (Tagged × Nat)) :
    document Component.all number ps =
      ps.flatMap fun p => placed p.1.component (number p.2) ++ p.1.after := by
  have hall : ∀ p : Tagged × Nat, p.1.component ∈ Component.all := by
    intro p
    cases p.1.component <;> decide
  simp only [document, if_pos (hall _)]

/-! ## The order of the passes -/

/-- Tags kind by kind, and within a kind in their order. -/
def byKind (cs : List Component) (ps : List (Tagged × Nat)) : List (Tagged × Nat) :=
  cs.flatMap fun c => ofKind c ps

/-- The passes over several kinds, of which none has been looked for. -/
theorem placeKinds_document {maxDepth : Int} {cs done : List Component} (hcs : (done ++ cs).Nodup)
    (number : Nat → Nat) {s : Text} (hs : Calm s) {ps : List (Tagged × Nat)}
    (h : ∀ p ∈ ps, p.1.WellFormed maxDepth) (w : Work)
    (hn : (byKind cs ps).map (fun p => number p.2) =
      List.range' w.shelf.size (byKind cs ps).length) :
    ∃ w', Stored maxDepth (byKind cs ps) w w' ∧
      (cs.foldlM (fun t c => placeAll maxDepth c t) (s ++ document done number ps)).run w =
        (s ++ document (done ++ cs) number ps, w') := by
  induction cs generalizing done w with
  | nil => exact ⟨w, Stored.nil, by rw [List.append_nil]; rfl⟩
  | cons c cs ih =>
    have hc : c ∉ done := by
      intro hd
      exact (List.nodup_append.1 hcs).2.2 c hd c (by simp) rfl
    have hkinds : byKind (c :: cs) ps = ofKind c ps ++ byKind cs ps := by simp [byKind]
    rw [hkinds] at hn ⊢
    rw [List.map_append, List.length_append, ← List.range'_append_1] at hn
    obtain ⟨hfirst, hrest⟩ := List.append_inj hn (by simp)
    obtain ⟨w', hstored, hrun⟩ := placeAll_document hc number h w hfirst
    rw [← hstored.size] at hrest
    have hcs : ((done ++ [c]) ++ cs).Nodup := by simpa using hcs
    obtain ⟨w'', hstored', hrun'⟩ := ih hcs w' hrest
    refine ⟨w'', hstored.append hstored', ?_⟩
    have hpass := placeAll_append (refused_calm hs head_document c) hrun
    rw [List.append_assoc] at hrun'
    rw [List.foldlM_cons, StateT.run_bind, hpass]
    exact hrun'

/-- The tags of a document with their positions, in the order in which their cards are made. -/
def inOrder (ts : List Tagged) : List (Tagged × Nat) := byKind Component.all ts.zipIdx

/-- The number of the card of the tag at a position, among all cards. -/
def number (ts : List Tagged) (k : Nat) : Nat := ((inOrder ts).map Prod.snd).idxOf k

theorem inOrder_perm (ts : List Tagged) : (inOrder ts).Perm ts.zipIdx := by
  have hkind (c : Component) : ofKind c ts.zipIdx = ts.zipIdx.filter fun p => some p.1.component == some c := by
    refine List.filter_congr fun p _ => ?_
    rw [Bool.eq_iff_iff, beq_iff_eq, Option.some.injEq, decide_eq_true_iff]
  have hall : ∀ p ∈ ts.zipIdx, (Component.all.any fun c => some p.1.component == some c) = true := by
    intro p _
    cases p.1.component <;> decide
  have hperm := Keyed.perm_groups (by decide : Component.all.Nodup) (fun p : Tagged × Nat => some p.1.component) ts.zipIdx
  rw [List.filter_eq_self.2 hall] at hperm
  rw [inOrder, byKind, funext hkind]
  exact hperm

theorem nodup_positions (ts : List Tagged) : ((inOrder ts).map Prod.snd).Nodup := by
  have hperm := (inOrder_perm ts).map Prod.snd
  rw [hperm.nodup_iff, List.zipIdx_map_snd]
  exact List.nodup_range'

/-- The card with the number of a position is the one of the tag there. -/
theorem getElem?_number {ts : List Tagged} {k : Nat} {t : Tagged} (h : ts[k]? = some t) :
    (inOrder ts)[number ts k]? = some (t, k) := by
  have hmem : (t, k) ∈ inOrder ts := by
    rw [(inOrder_perm ts).mem_iff, List.mem_zipIdx_iff_getElem?]
    exact h
  obtain ⟨i, hi, hp⟩ := List.getElem_of_mem hmem
  have hlen : i < ((inOrder ts).map Prod.snd).length := by simpa using hi
  have hidx := (nodup_positions ts).idxOf_getElem i hlen
  rw [List.getElem_map, hp] at hidx
  rw [number, hidx, List.getElem?_eq_getElem hi, hp]

/-- Numbers are given in the order in which the cards are made. -/
theorem map_number (ts : List Tagged) (n : Nat) :
    (inOrder ts).map (fun p => n + number ts p.2) = List.range' n (inOrder ts).length := by
  apply List.ext_getElem
  · simp
  · intro i hi hi'
    have hi : i < ((inOrder ts).map Prod.snd).length := by simpa using hi
    have hidx := (nodup_positions ts).idxOf_getElem i hi
    simp only [List.getElem_map] at hidx
    simp [number, hidx]

/-- A document of well-formed tags is replaced tag by tag. Each tag gives one card, and nothing else is
stored or reported; the place of a tag holds the number of its own card, and the texts around the tags
stay as they are. -/
theorem placeComponents_document (maxDepth : Int) (s : Text) (ts : List Tagged) (w : Work)
    (hs : Calm s) (h : ∀ t ∈ ts, t.WellFormed maxDepth) :
    (inOrder ts).Perm ts.zipIdx ∧
      (∀ k t, ts[k]? = some t → (inOrder ts)[number ts k]? = some (t, k)) ∧
      ∃ w', Stored maxDepth (inOrder ts) w w' ∧
        (placeComponents maxDepth (s ++ ts.flatMap fun t => t.write ++ t.after)).run w =
          (Work.withIds (wrapRequest (s ++ ts.zipIdx.flatMap fun p =>
            placed p.1.component (w.shelf.size + number ts p.2) ++ p.1.after))).run w' := by
  refine ⟨inOrder_perm ts, fun k t => getElem?_number, ?_⟩
  have hps : ∀ p ∈ ts.zipIdx, p.1.WellFormed maxDepth := fun p hp => h p.1 (List.fst_mem_of_mem_zipIdx hp)
  have hkinds : ([] ++ Component.all).Nodup := by decide
  obtain ⟨w', hstored, hrun⟩ := placeKinds_document hkinds
    (fun k => w.shelf.size + number ts k) hs hps w (map_number ts w.shelf.size)
  refine ⟨w', hstored, ?_⟩
  rw [document_before, List.nil_append, document_behind] at hrun
  rw [placeComponents, StateT.run_bind, hrun]
  rfl

theorem calm_of_notMem {t : Text} (h : '<' ∉ t) : Calm t := by
  rintro c ⟨a, b, rfl⟩
  exact h (by simp [openTag])

/-- Responses in front of parameters: the card of the parameters is made first. -/
theorem placeComponents_document_responses_first :
    let ts : List Tagged :=
      [⟨.responses, "\x7b\"200\": \x7b\x7d\x7d", .obj [("200", .obj [])], "\n\nBehind\n"⟩,
        ⟨.parameters, "[\x7b\"name\": \"a\"\x7d]", .arr [.obj [("name", .str "a")]], ""⟩]
    Calm "Intro\n" ∧ (∀ t ∈ ts, t.WellFormed 5) ∧ number ts 0 = 1 ∧ number ts 1 = 0 ∧
      ∃ w', Stored 5 (inOrder ts) Work.fresh w' ∧
        (placeComponents 5 ("Intro\n" ++ ts.flatMap fun t => t.write ++ t.after)).run Work.fresh =
          (Work.withIds (wrapRequest ("Intro\n" ++ ts.zipIdx.flatMap fun p =>
            placed p.1.component (Work.fresh.shelf.size + number ts p.2) ++ p.1.after))).run w' := by
  intro ts
  have hs : Calm "Intro\n" := calm_of_notMem (by decide)
  have hts : ∀ t ∈ ts, t.WellFormed 5 := by
    intro t ht
    rcases List.mem_cons.1 ht with rfl | ht
    · exact ⟨by decide +kernel, rfl, calm_of_notMem (by decide), calm_of_notMem (by decide)⟩
    · obtain rfl := List.mem_singleton.1 ht
      exact ⟨by decide +kernel, rfl, calm_of_notMem (by decide), calm_of_notMem (by decide)⟩
  obtain ⟨-, -, w', hstored, hrun⟩ := placeComponents_document 5 "Intro\n" ts Work.fresh hs hts
  exact ⟨hs, hts, by decide, by decide, w', hstored, hrun⟩

end DocPages.Api
