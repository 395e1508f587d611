import DocPages.Proofs.Page.Growth

/-!
# What the passes over the tags add

A pass takes nothing off the shelf and withdraws no issue. What it adds is told block by block: a block that shows a
fault is reported, in its turn, and any other block is the card of a payload that the pass has read in its text.
Since the next pass is given the text that this one leaves, the blocks of all passes stand one after the other.
-/

namespace DocPages.Api

/-! ## Boxes of faults and cards -/

/-- The kinds of tags with the faults that their payloads may have. -/
def faults : List (Component × Fault) := Component.all.flatMap fun c => [(c, .unbalanced), (c, .invalid)]

/-- The issue that belongs to a block, if the block shows a fault. -/
def reported? (block : Text) : Option Issue :=
  (faults.find? fun p => (faultBox p.1 p.2).write = block).map fun p => .payload p.1 p.2

theorem mem_faults (c : Component) (f : Fault) : (c, f) ∈ faults := by cases c <;> cases f <;> decide

/-- A box tells the kind of the tag and the fault. -/
theorem eq_of_write_faultBox : ∀ p ∈ faults, ∀ q ∈ faults,
    (faultBox p.1 p.2).write = (faultBox q.1 q.2).write → p = q := by
  decide

theorem reported?_eq_some_iff {block : Text} {issue : Issue} :
    reported? block = some issue ↔ ∃ c f, block = (faultBox c f).write ∧ issue = .payload c f := by
  rw [reported?, Option.map_eq_some_iff]
  constructor
  · rintro ⟨p, hp, rfl⟩
    have hsame := List.find?_some hp
    exact ⟨p.1, p.2, by simpa [eq_comm] using hsame, rfl⟩
  · rintro ⟨c, f, rfl, rfl⟩
    cases hp : faults.find? fun p => (faultBox p.1 p.2).write = (faultBox c f).write with
    | none =>
      have hother := List.find?_eq_none.1 hp (c, f) (mem_faults c f)
      simp at hother
    | some p =>
      have hsame : (faultBox p.1 p.2).write = (faultBox c f).write := by simpa using List.find?_some hp
      have hp := eq_of_write_faultBox p (List.mem_of_find?_eq_some hp) (c, f) (mem_faults c f) hsame
      exact ⟨p, rfl, by rw [hp]⟩

theorem reported?_faultBox (c : Component) (f : Fault) : reported? (faultBox c f).write = some (.payload c f) :=
  reported?_eq_some_iff.2 ⟨c, f, rfl, rfl⟩

theorem takeWhile_div {cls : Text} (h : '>' ∉ cls) (body : Html) :
    (Html.div cls body).write.takeWhile (· != '>') = '<' :: Tag.div.name ++ (Attr.cls cls).write := by
  have hnot : '>' ∉ '<' :: Tag.div.name ++ (Attr.cls cls).write := by
    rw [Attr.cls, Attr.write]
    simp only [List.mem_append, not_or]
    exact ⟨by decide, ⟨by decide, h⟩, by decide⟩
  have hopen (c : Char) (hc : c ∈ '<' :: Tag.div.name ++ (Attr.cls cls).write) : (c != '>') = true :=
    bne_iff_ne.2 fun heq => hnot (heq ▸ hc)
  have hwrite : (Html.div cls body).write =
      ('<' :: Tag.div.name ++ (Attr.cls cls).write) ++ '>' :: (body.write ++ "</" ++ Tag.div.name ++ ">") := by
    simp only [Html.div, Html.write, List.flatMap_cons, List.flatMap_nil, List.append_assoc, List.append_nil,
      List.cons_append]
    rfl
  rw [hwrite, List.takeWhile_append_of_pos hopen]
  exact List.append_nil _

theorem eq_of_write_div {cls cls' : Text} {body body' : Html} (h : '>' ∉ cls) (h' : '>' ∉ cls')
    (heq : (Html.div cls body).write = (Html.div cls' body').write) : cls = cls' := by
  have hopen := congrArg (List.takeWhile (· != '>')) heq
  rw [takeWhile_div h, takeWhile_div h'] at hopen
  have hattr : (Attr.cls cls).write = (Attr.cls cls').write := List.append_cancel_left hopen
  exact List.append_cancel_left (List.append_cancel_right hattr)

/-- A card shows no fault. -/
theorem reported?_card {c : Component} {maxDepth : Int} {v : Json} {ids : IdSupply} {card : Html}
    (h : ((c.render maxDepth v).run ids).1 = some card) : reported? card.write = none := by
  obtain ⟨body, rfl⟩ := box_of_render h
  rw [reported?, Option.map_eq_none_iff, List.find?_eq_none]
  intro p _ hwrite
  have hclass : "doc-api-error".toList = c.cardClass :=
    eq_of_write_div (by decide) (by cases c <;> decide) (of_decide_eq_true hwrite)
  revert hclass
  cases c <;> decide

/-! ## What a step adds -/

/-- The blocks are added to the shelf, and the issues of those that show a fault are added in their order. -/
structure Adds (w w' : Work) (bs : List Text) : Prop where
  blocks : w'.shelf.blocks = w.shelf.blocks ++ bs
  issues : w'.issues = w.issues ++ bs.filterMap reported?

section
variable {w w' w'' : Work} {bs bs' : List Text}

theorem Adds.refl (w : Work) : Adds w w [] := ⟨by simp, by simp⟩

theorem Adds.trans (h : Adds w w' bs) (h' : Adds w' w'' bs') : Adds w w'' (bs ++ bs') :=
  ⟨by rw [h'.blocks, h.blocks, List.append_assoc],
    by rw [h'.issues, h.issues, List.filterMap_append, List.append_assoc]⟩

theorem adds_reject (c : Component) (f : Fault) (w : Work) :
    Adds w ((reject c f).run w).2 [(faultBox c f).write] :=
  ⟨rfl, by simp [reported?_faultBox]; rfl⟩

end

/-- The block that an occurrence may give: the box of what is wrong with its payload, or the card of it. -/
inductive BlockOf (maxDepth : Int) (c : Component) : Occurrence → Text → Prop where
  | unclosed : BlockOf maxDepth c .unclosed (faultBox c .unbalanced).write
  | invalid {raw : Text} (h : payload? raw = none) : BlockOf maxDepth c (.payload raw) (faultBox c .invalid).write
  | card {raw : Text} {v : Json} {card : Html} {ids ids' : IdSupply} (h : payload? raw = some v)
      (hrun : (c.render maxDepth v).run ids = (some card, ids')) : BlockOf maxDepth c (.payload raw) card.write

theorem adds_place (maxDepth : Int) (c : Component) (o : Occurrence) (w : Work) :
    ∃ bs, Adds w ((place maxDepth c o).run w).2 bs ∧ ∀ b ∈ bs, BlockOf maxDepth c o b := by
  cases o with
  | bare => exact ⟨[], .refl w, by simp⟩
  | unclosed => exact ⟨_, adds_reject c .unbalanced w, by simpa using .unclosed⟩
  | payload raw =>
    cases hread : payload? raw with
    | none =>
      rw [place, hread]
      exact ⟨_, adds_reject c .invalid w, by simpa using .invalid hread⟩
    | some v =>
      rw [place, hread]
      simp only
      cases hrun : (c.render maxDepth v).run w.ids with
      | mk o ids =>
        have hids : (Work.withIds (c.render maxDepth v)).run w = (o, { w with ids }) := by
          have h : c.render maxDepth v w.ids = (o, ids) := hrun
          simp only [StateT.run, Work.withIds, h]
        rw [Work.run_bind, hids]
        cases o with
        | none => exact ⟨[], ⟨by simp; rfl, by simp; rfl⟩, by simp⟩
        | some card =>
          refine ⟨[card.write], ⟨rfl, ?_⟩, by simpa using .card hread hrun⟩
          have hquiet : reported? card.write = none := reported?_card (congrArg Prod.fst hrun)
          simp [hquiet]
          rfl

/-- A block that the pass over a kind gives for a tag in its text. -/
def BlockIn (maxDepth : Int) (c : Component) (t b : Text) : Prop :=
  ∃ s o rest, s <:+ t ∧ occurrence? c s = some (o, rest) ∧ BlockOf maxDepth c o b

theorem BlockIn.of_suffix {maxDepth : Int} {c : Component} {s t b : Text} (h : BlockIn maxDepth c s b) (hs : s <:+ t) :
    BlockIn maxDepth c t b := by
  obtain ⟨u, o, rest, hu, hread, hblock⟩ := h
  exact ⟨u, o, rest, hu.trans hs, hread, hblock⟩

theorem adds_placeAll (maxDepth : Int) (c : Component) (t : Text) (w : Work) :
    ∃ bs, Adds w ((placeAll maxDepth c t).run w).2 bs ∧ ∀ b ∈ bs, BlockIn maxDepth c t b := by
  induction t using (takes_occurrence c).induction generalizing w with
  | nil => exact ⟨[], .refl w, by simp⟩
  | kept x t hread ih =>
    obtain ⟨bs, hadds, hgiven⟩ := ih w
    rw [placeAll, Text.mapFoundM_kept hread, Work.run_bind_pure]
    exact ⟨bs, hadds, fun b hb => (hgiven b hb).of_suffix (List.suffix_cons x t)⟩
  | found s t o hs hread ih =>
    obtain ⟨bs, hplace, hblock⟩ := adds_place maxDepth c o w
    obtain ⟨bs', hrest, hgiven⟩ := ih ((place maxDepth c o).run w).2
    rw [placeAll, Text.mapFoundM_front hs hread, Work.run_bind, Work.run_bind_pure]
    refine ⟨bs ++ bs', hplace.trans hrest, fun b hb => ?_⟩
    rcases List.mem_append.1 hb with hb | hb
    · exact ⟨s ++ t, o, t, List.suffix_refl _, hread, hblock b hb⟩
    · exact (hgiven b hb).of_suffix (List.suffix_append s t)

/-! ## The passes one after the other -/

/-- The text and the work that the pass over a kind is given, when there are passes over some kinds. -/
def input (maxDepth : Int) (cs : List Component) (c : Component) (t : Text) (w : Work) : Text × Work :=
  ((cs.takeWhile (· != c)).foldlM (fun t d => placeAll maxDepth d t) t).run w

/-- The blocks that the pass over a kind puts on the shelf. -/
def stored (maxDepth : Int) (cs : List Component) (c : Component) (t : Text) (w : Work) : List Text :=
  let p := input maxDepth cs c t w
  ((placeAll maxDepth c p.1).run p.2).2.shelf.blocks.drop p.2.shelf.size

section
variable {maxDepth : Int} {cs : List Component} {c d : Component} {t : Text} {w : Work}

theorem input_head : input maxDepth (c :: cs) c t w = (t, w) := by
  rw [input, List.takeWhile_cons_of_neg (by simp)]
  rfl

theorem input_tail (h : d ≠ c) : input maxDepth (d :: cs) c t w =
    input maxDepth cs c ((placeAll maxDepth d t).run w).1 ((placeAll maxDepth d t).run w).2 := by
  rw [input, List.takeWhile_cons_of_pos (by simpa using h), List.foldlM_cons]
  rfl

theorem stored_tail (h : d ≠ c) : stored maxDepth (d :: cs) c t w =
    stored maxDepth cs c ((placeAll maxDepth d t).run w).1 ((placeAll maxDepth d t).run w).2 := by
  rw [stored, input_tail h]
  rfl

/-- What is stored is what the pass adds. -/
theorem stored_eq {bs : List Text} (h : Adds (input maxDepth cs c t w).2
    ((placeAll maxDepth c (input maxDepth cs c t w).1).run (input maxDepth cs c t w).2).2 bs) :
    stored maxDepth cs c t w = bs := by
  have hblocks := h.blocks
  simp only [stored, hblocks, Shelf.size, List.drop_left]

theorem adds_stored (maxDepth : Int) (cs : List Component) (c : Component) (t : Text) (w : Work) :
    Adds (input maxDepth cs c t w).2
      ((placeAll maxDepth c (input maxDepth cs c t w).1).run (input maxDepth cs c t w).2).2
      (stored maxDepth cs c t w) ∧
      ∀ b ∈ stored maxDepth cs c t w, BlockIn maxDepth c (input maxDepth cs c t w).1 b := by
  obtain ⟨bs, hadds, hgiven⟩ := adds_placeAll maxDepth c (input maxDepth cs c t w).1 (input maxDepth cs c t w).2
  rw [stored_eq hadds]
  exact ⟨hadds, hgiven⟩

variable (maxDepth) in
theorem adds_passes (hcs : cs.Nodup) (t : Text) (w : Work) :
    Adds w ((cs.foldlM (fun t d => placeAll maxDepth d t) t).run w).2
      (cs.flatMap fun c => stored maxDepth cs c t w) := by
  induction cs generalizing t w with
  | nil => exact .refl w
  | cons d cs ih =>
    obtain ⟨hd, hcs⟩ := List.nodup_cons.1 hcs
    have hfirst := (adds_stored maxDepth (d :: cs) d t w).1
    rw [input_head] at hfirst
    have hrest := ih hcs ((placeAll maxDepth d t).run w).1 ((placeAll maxDepth d t).run w).2
    have hstored : (cs.flatMap fun c => stored maxDepth (d :: cs) c t w) = cs.flatMap fun c =>
        stored maxDepth cs c ((placeAll maxDepth d t).run w).1 ((placeAll maxDepth d t).run w).2 :=
      List.flatMap_congr fun c hc => stored_tail fun he => hd (he ▸ hc)
    rw [List.foldlM_cons, Work.run_bind, List.flatMap_cons, hstored]
    exact hfirst.trans hrest

end

/-- All that stood on the shelf and all issues stay, and each pass adds its blocks behind them, with the issues of
those that show a fault of its kind. Any other block is a card of a payload that the pass has read in its text. -/
theorem placeComponents_adds (maxDepth : Int) (t : Text) (w : Work) :
    let w' := ((placeComponents maxDepth t).run w).2
    let added := Component.all.flatMap fun c => stored maxDepth Component.all c t w
    w'.shelf.blocks = w.shelf.blocks ++ added ∧ w'.issues = w.issues ++ added.filterMap reported? ∧
      ∀ c, ∀ b ∈ stored maxDepth Component.all c t w,
        (∃ f, b = (faultBox c f).write ∧ reported? b = some (.payload c f)) ∨
        (reported? b = none ∧ b ≠ [] ∧ ∃ s raw rest v card ids ids',
          s <:+ (input maxDepth Component.all c t w).1 ∧ occurrence? c s = some (.payload raw, rest) ∧
          payload? raw = some v ∧ (c.render maxDepth v).run ids = (some card, ids') ∧ b = card.write) := by
  have hkinds : Component.all.Nodup := by decide
  have hadds := adds_passes maxDepth hkinds t w
  refine ⟨hadds.blocks, hadds.issues, fun c b hb => ?_⟩
  obtain ⟨s, o, rest, hs, hread, hblock⟩ := (adds_stored maxDepth Component.all c t w).2 b hb
  cases hblock with
  | unclosed => exact .inl ⟨.unbalanced, rfl, reported?_faultBox c .unbalanced⟩
  | invalid _ => exact .inl ⟨.invalid, rfl, reported?_faultBox c .invalid⟩
  | @card raw v card ids ids' hvalue hrun =>
    have hcard := congrArg Prod.fst hrun
    obtain ⟨body, hbox⟩ := box_of_render hcard
    refine .inr ⟨reported?_card hcard, ?_, s, raw, rest, v, card, ids, ids', hs, hread, hvalue, hrun, rfl⟩
    rw [hbox]
    exact List.cons_ne_nil '<' _

/-- A tag with a card in front of one with an open payload. -/
theorem placeComponents_adds_card_and_box :
    let t : Text := "<ApiSecurity security=\x7b\"jwt\": []\x7d /><ApiParams parameters=\x7b[1 />"
    ((placeComponents 16 t).run Work.fresh).2.issues = [.payload .parameters .unbalanced] ∧
      stored 16 Component.all .parameters t Work.fresh = [(faultBox .parameters .unbalanced).write] ∧
      ∃ b, stored 16 Component.all .security t Work.fresh = [b] ∧ b ≠ [] := by
  have hall := placeComponents_adds 16
    "<ApiSecurity security=\x7b\"jwt\": []\x7d /><ApiParams parameters=\x7b[1 />" Work.fresh
  have hcard : (stored 16 Component.all .security
      "<ApiSecurity security=\x7b\"jwt\": []\x7d /><ApiParams parameters=\x7b[1 />" Work.fresh).map reported? =
      [none] := by decide +kernel
  obtain ⟨b, hb, hquiet⟩ := List.map_eq_singleton_iff.1 hcard
  refine ⟨by decide +kernel, by decide +kernel, b, hb, ?_⟩
  rcases hall.2.2 .security b (hb ▸ List.mem_singleton_self b) with ⟨f, -, hloud⟩ | ⟨-, hne, -⟩
  · rw [hquiet] at hloud
    cases hloud
  · exact hne

end DocPages.Api
