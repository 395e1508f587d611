import DocPages.Proofs.Page.Forest
import DocPages.Proofs.Page.Frame
import DocPages.Proofs.Page.Quiet

/-!
# One pass over nested components

A pass replaces the components of one kind, wherever they stand, by tokens of blocks, and renders the regions inside
them at once. What the text shows stays the same, and the kind does not occur in it any more.
-/

namespace DocPages.Markup

open DocPages.Shelf (token)
open DocPages.Text (Clear)

/-- A step in a text: its title, the text of its content and what that is rendered as. -/
structure Item where
  title : Phrase
  content : Text
  view : Text

def Item.write (i : Item) : Text := writeStep i.title i.content

def Item.part (i : Item) : Text × Text := (i.title.text, echo i.view)

/-- A text between two passes and its direct rendering. Components of kinds in `D` may be written out, none beneath
itself; others are tokens of blocks that stand for their rendering. -/
inductive Shows (done : List Text) : Finset Kind → Text → Text → Prop where
  | nil (D : Finset Kind) : Shows done D [] []
  | gap {D : Finset Kind} {t z : Text} (h : Shows done D t z) : Shows done D ('\n' :: t) z
  | words {D : Finset Kind} {t z : Text} (p : Phrase) (h : Shows done D t z) : Shows done D (p.text ++ t) (p.text ++ z)
  | held {D : Finset Kind} {t z e x : Text} {n : Nat} (he : done[n]? = some e) (hx : squash e = squash x)
      (h : Shows done D t z) : Shows done D (token n ++ t) (x ++ z)
  | box {D : Finset Kind} {s t y z : Text} (b : Box) (hb : b.kind ∈ D) (hs : Shows done (D.erase b.kind) s y)
      (h : Shows done D t z) : Shows done D (b.write s ++ t) ((b.html (echo y)).write ++ z)
  | steps {D : Finset Kind} {t z : Text} {items : List Item} (hsteps : .steps ∈ D)
      (hitems : ∀ i ∈ items, Shows done (D.erase .steps) i.content i.view) (h : Shows done D t z) :
      Shows done D (writeSteps (items.map Item.write) ++ t) ((htmlOfSteps (items.map Item.part)).write ++ z)

theorem getElem?_mono {done done' : List Text} {n : Nat} {e : Text} (hle : done <+: done')
    (he : done[n]? = some e) : done'[n]? = some e := by
  obtain ⟨more, rfl⟩ := hle
  rw [List.getElem?_append_left (List.getElem?_eq_some_iff.1 he).1, he]

namespace Shows

variable {done done' : List Text} {D : Finset Kind} {s t y z : Text}

theorem append (hs : Shows done D s y) (ht : Shows done D t z) : Shows done D (s ++ t) (y ++ z) := by
  induction hs with
  | nil => exact ht
  | gap _ ih => exact .gap (ih ht)
  | words p _ ih =>
    rw [List.append_assoc, List.append_assoc]
    exact .words p (ih ht)
  | held he hx _ ih =>
    rw [List.append_assoc, List.append_assoc]
    exact .held he hx (ih ht)
  | box b hb hs _ _ ih =>
    rw [List.append_assoc, List.append_assoc]
    exact .box b hb hs (ih ht)
  | steps hsteps hitems _ _ ih =>
    rw [List.append_assoc, List.append_assoc]
    exact .steps hsteps hitems (ih ht)

/-- A line break behind a text is not shown. -/
theorem behind (h : Shows done D t z) : Shows done D (t ++ ['\n']) z := by
  have happend := h.append (.gap (.nil D))
  rwa [List.append_nil] at happend

theorem mono (h : Shows done D t z) (hle : done <+: done') : Shows done' D t z := by
  induction h with
  | nil => exact .nil _
  | gap _ ih => exact .gap ih
  | words p _ ih => exact .words p ih
  | held he hx _ ih => exact .held (getElem?_mono hle he) hx ih
  | box b hb _ _ ihs ih => exact .box b hb ihs ih
  | steps hsteps _ _ ihitems ih => exact .steps hsteps ihitems ih

/-- A text in which no component is written out stands for its direct rendering. -/
theorem stands (h : Shows done D t z) (hD : D = ∅) : Stands done t z := by
  induction h with
  | nil => exact .nil done
  | gap _ ih => exact (Stands.gap done).append (ih hD)
  | words p _ ih =>
    have hletter : 'F' ∉ p.text := p.notMem (by decide) (by decide)
    have hbracket : '<' ∉ p.text := p.notMem (by decide) (by decide)
    have hopen : ∀ s ∈ Shelf.openings, '<' ∈ s := by decide
    have hplain : (Shelf.Part.plain p.text).Harmless :=
      ⟨hletter, fun s hs hsuffix => hbracket (hsuffix.subset (hopen s hs))⟩
    exact (Stands.plain hplain done).append (ih hD)
  | held he hx _ ih => exact (Stands.token he hx).append (ih hD)
  | box b hb _ _ _ _ => simp [hD] at hb
  | steps hsteps _ _ _ _ => simp [hD] at hsteps

end Shows

/-! ## The text of a component -/

/-- Neither the first nor the last character is a blank. -/
structure Solid (s : Text) : Prop where
  first : ∃ c u, s = c :: u ∧ isBlank c = false
  last : ∃ u c, s = u ++ [c] ∧ isBlank c = false

theorem Phrase.solid (p : Phrase) : Solid p.text := by
  have hne : p.text ≠ [] := fun hnil => by simpa [hnil] using p.first
  obtain ⟨c, u, hu⟩ := List.exists_cons_of_ne_nil hne
  obtain ⟨v, d, hv⟩ := (List.eq_nil_or_concat p.text).resolve_left hne
  exact ⟨⟨c, u, hu, p.not_isBlank_head (by simp [hu])⟩,
    ⟨v, d, by simpa using hv, p.not_isBlank_last (by simp [hv])⟩⟩

theorem solid_token (n : Nat) : Solid (token n) :=
  ⟨⟨'D', ['O', 'C', 'F'] ++ Shelf.tokenRest n, by simp [Shelf.token_eq], by decide⟩,
    ⟨['D', 'O', 'C', 'F'] ++ (['O', 'R', 'G', 'E', 'S', 'T', 'A', 'S', 'H'] ++ Text.ofNat n ++ ['E', 'N']), 'D',
      by simp [Shelf.token_eq, Shelf.tokenRest], by decide⟩⟩

theorem solid_wrap {first last : Text} (hfirst : ∃ c u, first = c :: u ∧ isBlank c = false)
    (hlast : ∃ u c, last = u ++ [c] ∧ isBlank c = false) (s : Text) : Solid (wrap first last s) := by
  obtain ⟨c, u, rfl, hc⟩ := hfirst
  obtain ⟨v, d, rfl, hd⟩ := hlast
  exact ⟨⟨c, u ++ '\n' :: (s ++ '\n' :: (v ++ [d])), rfl, hc⟩,
    ⟨c :: u ++ '\n' :: (s ++ '\n' :: v), d, by simp [wrap], hd⟩⟩

theorem Kind.endLine_ends (k : Kind) : ∃ u c, k.endLine = u ++ [c] ∧ isBlank c = false := by
  cases k with
  | callout => exact ⟨[':', ':'], ':', rfl, by decide⟩
  | _ => exact ⟨_, '>', rfl, by decide⟩

theorem Box.solid_write (b : Box) (s : Text) : Solid (b.write s) := by
  refine solid_wrap ?_ b.kind.endLine_ends s
  cases b with
  | callout type known => exact ⟨':', [':', ':'] ++ type, rfl, by decide⟩
  | _ => exact ⟨'<', _, rfl, by decide⟩

theorem solid_writeSteps (steps : List Text) : Solid (writeSteps steps) :=
  solid_wrap ⟨'<', _, rfl, by decide⟩ Kind.steps.endLine_ends _

namespace Solid

variable {s t : Text}

theorem ne_nil (h : Solid s) : s ≠ [] := by
  obtain ⟨c, u, rfl, -⟩ := h.first
  simp

theorem trimStart_append (h : Solid s) (t : Text) : Text.trimStart isBlank (s ++ t) = s ++ t := by
  obtain ⟨c, u, rfl, hc⟩ := h.first
  exact Text.trimStart_eq_self (by simpa using hc)

theorem trimEnd_append (h : Solid s) (t : Text) : Text.trimEnd isBlank (s ++ t) = s ++ Text.trimEnd isBlank t := by
  obtain ⟨u, c, rfl, hc⟩ := h.last
  simpa using Text.trimEnd_append hc t

theorem strip_lines (h : Solid s) : Text.strip ('\n' :: (s ++ ['\n'])) = s := by
  have hfront : Text.trimStart isBlank ('\n' :: (s ++ ['\n'])) = s ++ ['\n'] := h.trimStart_append ['\n']
  have hback : Text.trimEnd isBlank (s ++ ['\n']) = s ++ [] := h.trimEnd_append ['\n']
  rw [Text.strip, Text.trim, hfront, hback, List.append_nil]

end Solid

namespace Shows

variable {done : List Text} {D : Finset Kind} {t z : Text}

theorem trimStart (h : Shows done D t z) : Shows done D (Text.trimStart isBlank t) z := by
  induction h with
  | nil => exact .nil _
  | gap _ ih => exact ih
  | words p h _ =>
    rw [p.solid.trimStart_append]
    exact .words p h
  | held he hx h _ =>
    rw [(solid_token _).trimStart_append]
    exact .held he hx h
  | box b hb hs h _ _ =>
    rw [(b.solid_write _).trimStart_append]
    exact .box b hb hs h
  | steps hsteps hitems h _ _ =>
    rw [(solid_writeSteps _).trimStart_append]
    exact .steps hsteps hitems h

theorem trimEnd (h : Shows done D t z) : Shows done D (Text.trimEnd isBlank t) z := by
  induction h with
  | nil => exact .nil _
  | gap _ ih =>
    rcases Text.trimEnd_cons '\n' _ with hkept | ⟨htrimmed, hnil⟩
    · exact hkept ▸ .gap ih
    · exact htrimmed ▸ hnil ▸ ih
  | words p _ ih =>
    rw [p.solid.trimEnd_append]
    exact .words p ih
  | held he hx _ ih =>
    rw [(solid_token _).trimEnd_append]
    exact .held he hx ih
  | box b hb hs _ _ ih =>
    rw [(b.solid_write _).trimEnd_append]
    exact .box b hb hs ih
  | steps hsteps hitems _ _ ih =>
    rw [(solid_writeSteps _).trimEnd_append]
    exact .steps hsteps hitems ih

theorem strip (h : Shows done D t z) : Shows done D (Text.strip t) z := h.trimStart.trimEnd

end Shows

theorem Made.box {D : Finset Kind} {s : Text} (b : Box) (hb : b.kind ∈ D) (hs : Made D s) : Made D (b.write s) :=
  .wrap (.startLine b hb) (.endLine hb) hs

theorem Made.separator {D : Finset Kind} (rest : List Text) : Made D (separator rest) := by
  unfold Markup.separator
  split
  · exact .nil
  · exact .gap (.gap .nil)

theorem Made.joinBlocks {D : Finset Kind} {blocks : List Text} (h : ∀ t ∈ blocks, Made D t) :
    Made D (joinBlocks blocks) := by
  induction blocks with
  | nil => exact .nil
  | cons t rest ih =>
    rw [joinBlocks_cons]
    exact (h t (by simp)).append ((Made.separator rest).append (ih fun u hu => h u (by simp [hu])))

theorem Made.stepsLine {D : Finset Kind} (h : .steps ∈ D) : Made D (Element.startTag "Steps" ++ ['>']) :=
  .bareLine h (by decide)

theorem Made.stepLine {D : Finset Kind} (title : Phrase) (h : .steps ∈ D) : Made D (Markup.titleLine "Step" title) :=
  .titleLine title h (by decide)

theorem Made.stepEnd {D : Finset Kind} (h : .steps ∈ D) : Made D (Element.endTag "Step") :=
  .bareLine h (by decide)

theorem Made.writeSteps {D : Finset Kind} {items : List Item} (hsteps : .steps ∈ D)
    (h : ∀ i ∈ items, Made D i.content) : Made D (writeSteps (items.map Item.write)) := by
  refine .wrap (.stepsLine hsteps) (.endLine hsteps) (.joinBlocks fun t ht => ?_)
  obtain ⟨i, hi, rfl⟩ := List.mem_map.1 ht
  exact .wrap (.stepLine i.title hsteps) (.stepEnd hsteps) (h i hi)

theorem Shows.made {done : List Text} {D : Finset Kind} {t z : Text} (h : Shows done D t z) : Made D t := by
  induction h with
  | nil => exact .nil
  | gap _ ih => exact .gap ih
  | words p _ ih => exact .words p ih
  | held _ _ _ ih => exact .token _ ih
  | box b hb _ _ ihs ih => exact (Made.box b hb (ihs.mono (Finset.erase_subset _ _))).append ih
  | steps hsteps _ _ ihitems ih =>
    exact (Made.writeSteps hsteps fun i hi => (ihitems i hi).mono (Finset.erase_subset _ _)).append ih

/-! ## One pass -/

/-- What a pass does with a list of steps. -/
def placeSteps (inner : Text → StateM Work Text) (items : List Item) : StateM Work Text :=
  if items.isEmpty then return ['\n', '\n']
  else do
    let parts ← items.mapM fun i => return (i.title.text, ← inner ('\n' :: (i.content ++ ['\n'])))
    Work.shelve (Element.steps parts).write

/-- What shows a text with components of at most `depth` kinds is rendered to what stands for the echo of that
text. -/
def Renders (depth : Nat) (inner : Text → StateM Work Text) : Prop :=
  ∀ ⦃done : List Text⦄ ⦃D : Finset Kind⦄ ⦃s y : Text⦄, D.card ≤ depth → Shows done D s y →
    Leads done (inner s) fun done' u => Stands done' u (echo y)

/-- The pass for components of one kind: its reader accepts only what begins as they do, and takes off each of them
as it is written; its writer puts the template around what has become of the content. -/
structure Pass (inner : Text → StateM Work Text) (K : Kind) {α : Type} (read : Reader Char α)
    (write : α → StateM Work Text) : Prop where
  begins : Begins read K.startMark
  box {b : Box} {s : Text} (hb : b.kind = K) (hs : ∀ r, Clear K.endLine ('\n' :: (s ++ ['\n'])) r) :
    ∃ a body, (body = s ++ ['\n'] ∨ body = '\n' :: (s ++ ['\n'])) ∧
      (∀ t, read (b.write s ++ t) = some (a, t)) ∧
      write a = do Work.shelve (b.html (← inner body)).write
  steps {D : Finset Kind} {items : List Item} (hK : K = .steps) (hD : .steps ∉ D)
    (hitems : ∀ i ∈ items, Made D i.content) :
    ∃ a, (∀ t, read (writeSteps (items.map Item.write) ++ t) = some (a, t)) ∧ write a = placeSteps inner items

section
variable {D : Finset Kind} {K : Kind} {s : Text}

theorem Made.clear_startMark (h : Made D s) (hapart : ∀ k ∈ D, Apart K.startMark k) (r : Text) :
    Clear K.startMark s r := by
  have hmark : ∃ c part, K.startMark = c :: part ∧ c ∈ marks := by cases K <;> exact ⟨_, _, rfl, by decide⟩
  obtain ⟨c, part, hpart, hc⟩ := hmark
  rw [hpart] at hapart ⊢
  exact h.clear (List.mem_cons_of_mem _ hc) (clear_token hc) hapart r

theorem Made.clear_endLine (h : Made D s) (hK : K ∉ D) (r : Text) : Clear K.endLine s r := by
  have hmark : ∃ c part, K.endLine = c :: part ∧ c ∈ marks := by cases K <;> exact ⟨_, _, rfl, by decide⟩
  have hapart (k : Kind) (hk : k ≠ K) : Apart K.endLine k := by
    cases K <;> cases k <;> first | exact absurd rfl hk | decide
  obtain ⟨c, part, hpart, hc⟩ := hmark
  have hD : ∀ k ∈ D, Apart K.endLine k := fun k hk => hapart k fun he => hK (he ▸ hk)
  rw [hpart] at hD ⊢
  exact h.clear (List.mem_cons_of_mem _ hc) (clear_token hc) hD r

end

section
variable {α : Type} {read : Reader Char α} {write : α → StateM Work Text} {first last s t : Text}

theorem refused_wrap (hfirst : ∀ r, Refused read (first ++ ['\n']) r) (hs : ∀ r, Refused read s r)
    (hlast : ∀ r, Refused read ('\n' :: last) r) (r : Text) : Refused read (wrap first last s) r := by
  have hrefused : Refused read ((first ++ ['\n']) ++ (s ++ ('\n' :: last))) r :=
    .append (hfirst _) (.append (hs _) (hlast r))
  simpa [wrap] using hrefused

theorem splits_wrap (hfirst : ∀ r, Refused read (first ++ ['\n']) r) (hlast : ∀ r, Refused read ('\n' :: last) r)
    (hs : Splits read s) : Splits read (wrap first last s) := by
  have hsplits := (Splits.of_refused hfirst).append (hs.append (.of_refused hlast))
  simpa [wrap] using hsplits

/-- A pass over a component that it does not accept works on its content. -/
theorem mapFoundM_wrap (hfirst : ∀ r, Refused read (first ++ ['\n']) r)
    (hlast : ∀ r, Refused read ('\n' :: last) r) (hs : Splits read s) :
    Text.mapFoundM read write (wrap first last s ++ t) = do
      let u ← Text.mapFoundM read write s
      let v ← Text.mapFoundM read write t
      return wrap first last u ++ v := by
  have hsplit : wrap first last s ++ t = (first ++ ['\n']) ++ (s ++ (('\n' :: last) ++ t)) := by simp [wrap]
  rw [hsplit, Text.mapFoundM_append (hfirst _), Text.mapFoundM_split hs, Text.mapFoundM_append (hlast t)]
  simp [wrap]

end

namespace Pass

variable {inner : Text → StateM Work Text} {K : Kind} {α : Type} {read : Reader Char α}
  {write : α → StateM Work Text} {done : List Text} {D : Finset Kind} {s t z : Text}

theorem refused (hp : Pass inner K read write) (h : Made D s) (hD : ∀ k ∈ D, Apart K.startMark k) (r : Text) :
    Refused read s r :=
  Text.refused_of_clear hp.begins (h.clear_startMark hD r)

/-- A text without lines of components is passed over. -/
theorem refused_bare (hp : Pass inner K read write) (h : Made ∅ s) (r : Text) : Refused read s r :=
  hp.refused h (by simp) r

/-- The lines of a component of another kind are passed over. -/
theorem refused_lines (hp : Pass inner K read write) {k : Kind} (hk : Apart K.startMark k) {line : Text}
    (h : Made {k} line) : (∀ r, Refused read (line ++ ['\n']) r) ∧ ∀ r, Refused read ('\n' :: line) r := by
  have hD : ∀ j ∈ ({k} : Finset Kind), Apart K.startMark j := by simpa using hk
  exact ⟨hp.refused (h.append (.gap .nil)) hD, hp.refused (.gap h) hD⟩

theorem splits_items (hp : Pass inner K read write) (hsteps : Apart K.startMark .steps) {items : List Item}
    (h : ∀ i ∈ items, Splits read i.content) : Splits read (joinBlocks (items.map Item.write)) := by
  induction items with
  | nil => exact .of_refused fun r => .nil read r
  | cons i rest ih =>
    have hitem : Splits read i.write :=
      splits_wrap (hp.refused_lines hsteps (.stepLine i.title (by simp))).1
        (hp.refused_lines hsteps (.stepEnd (by simp))).2 (h i (by simp))
    rw [List.map_cons, joinBlocks_cons]
    exact hitem.append ((Splits.of_refused (hp.refused_bare (.separator _))).append
      (ih fun j hj => h j (List.mem_cons_of_mem i hj)))

theorem splits (hp : Pass inner K read write) (hD : ∀ k ∈ D, k ≠ K → Apart K.startMark k)
    (h : Shows done D t z) : Splits read t := by
  induction h with
  | nil => exact .of_refused fun r => .nil read r
  | gap _ ih =>
    have hgap : Splits read ['\n'] := .of_refused (hp.refused_bare (.gap .nil))
    exact hgap.append (ih hD)
  | words p _ ih => exact (Splits.of_refused (hp.refused_bare (.ofPhrase p))).append (ih hD)
  | held _ _ _ ih => exact (Splits.of_refused (hp.refused_bare (.ofToken _))).append (ih hD)
  | box b hb hs _ ihs ih =>
    refine Splits.append ?_ (ih hD)
    by_cases hK : b.kind = K
    · have hmade : Made (Finset.erase _ b.kind) ('\n' :: (_ ++ ['\n'])) := .gap (hs.made.append (.gap .nil))
      obtain ⟨a, -, -, hread, -⟩ := hp.box hK (hK ▸ hmade.clear_endLine (Finset.notMem_erase _ _))
      exact .of_found (b.solid_write _).ne_nil hread
    · have hb := hD _ hb hK
      exact splits_wrap (hp.refused_lines hb (.startLine b (by simp))).1
        (hp.refused_lines hb (.endLine (by simp))).2 (ihs fun k hk => hD k (Finset.mem_of_mem_erase hk))
  | steps hsteps hitems _ ihitems ih =>
    refine Splits.append ?_ (ih hD)
    by_cases hK : K = .steps
    · obtain ⟨a, hread, -⟩ := hp.steps hK (Finset.notMem_erase _ _) fun i hi => (hitems i hi).made
      exact .of_found (solid_writeSteps _).ne_nil hread
    · have hsteps := hD _ hsteps (Ne.symm hK)
      exact splits_wrap (hp.refused_lines hsteps (.stepsLine (by simp))).1
        (hp.refused_lines hsteps (.endLine (by simp))).2
        (hp.splits_items hsteps fun i hi => ihitems i hi fun k hk => hD k (Finset.mem_of_mem_erase hk))

theorem shows_place {n : Nat} {e x : Text} (he : done[n]? = some e) (hx : squash e = squash x) :
    Shows done D (Shelf.place n) x := by
  have hplace : Shelf.place n = '\n' :: '\n' :: (token n ++ ['\n', '\n']) := by simp [Shelf.place]
  have hshows : Shows done D (Shelf.place n) (x ++ []) :=
    hplace ▸ .gap (.gap (.held he hx (.gap (.gap (.nil D)))))
  simpa using hshows

theorem leads_box {depth : Nat} (hinner : Renders depth inner) {body y : Text} (b : Box) (hcard : D.card ≤ depth)
    (hbody : Shows done D body y) (E : Finset Kind) :
    Leads done (do Work.shelve (b.html (← inner body)).write) fun done' u =>
      Shows done' E u (b.html (echo y)).write := by
  refine (hinner hcard hbody).bind fun done₁ u _ hu => ?_
  refine (Leads.shelve (b.frames.stands hu)).imp fun done₂ v _ hv => ?_
  obtain ⟨n, e, rfl, he, hx⟩ := hv
  exact shows_place he hx

theorem leads_placeSteps {depth : Nat} (hinner : Renders depth inner) {items : List Item} (hcard : D.card ≤ depth)
    (hitems : ∀ i ∈ items, Shows done D i.content i.view) (E : Finset Kind) :
    Leads done (placeSteps inner items) fun done' u => Shows done' E u (htmlOfSteps (items.map Item.part)).write := by
  cases items with
  | nil => exact .pure (.gap (.gap (.nil E)))
  | cons i rest =>
    have hmapM : Leads done
        ((i :: rest).mapM fun i : Item => return (i.title.text, ← inner ('\n' :: (i.content ++ ['\n']))))
        fun done' parts => List.Forall₂ (fun (j : Item) p => p.1 = j.title.text ∧ Stands done' p.2 (echo j.view))
          (i :: rest) parts := by
      refine .mapM (fun hle hp => ⟨hp.1, hp.2.mono hle⟩) fun j hj done' hle => ?_
      have hcontent := ((hitems j hj).mono hle).behind.gap
      exact (hinner hcard hcontent).bind fun done₁ u _ hu => .pure ⟨rfl, hu⟩
    refine hmapM.bind fun done₁ parts _ hparts => ?_
    have hstands : Stands done₁ (Element.steps parts).write (Element.steps ((i :: rest).map Item.part)).write := by
      refine stands_steps ?_
      rw [List.forall₂_map_right_iff]
      refine hparts.flip.imp fun p j hp => ⟨hp.1, ?_, hp.2⟩
      rw [hp.1]
      exact j.title.notMem (by decide) (by decide)
    refine (Leads.shelve hstands).imp fun done₂ v _ hv => ?_
    obtain ⟨n, e, rfl, he, hx⟩ := hv
    exact shows_place he hx

theorem leads_items (hp : Pass inner K read write) (hsteps : Apart K.startMark .steps) {items : List Item}
    (hsplits : ∀ i ∈ items, Splits read i.content)
    (h : ∀ i ∈ items, ∀ done', done <+: done' →
      Leads done' (Text.mapFoundM read write i.content) fun done' u => Shows done' D u i.view) :
    Leads done (Text.mapFoundM read write (joinBlocks (items.map Item.write))) fun done' u =>
      ∃ items' : List Item, u = joinBlocks (items'.map Item.write) ∧
        items'.map Item.part = items.map Item.part ∧ ∀ i ∈ items', Shows done' D i.content i.view := by
  induction items generalizing done with
  | nil => exact .pure ⟨[], rfl, rfl, by simp⟩
  | cons i rest ih =>
    have hline := (hp.refused_lines hsteps (.stepLine i.title (by simp))).1
    have hend := (hp.refused_lines hsteps (.stepEnd (by simp))).2
    rw [List.map_cons, joinBlocks_cons, Item.write, writeStep, mapFoundM_wrap hline hend (hsplits i (by simp)),
      Text.mapFoundM_append (hp.refused_bare (.separator _) _)]
    refine (h i (by simp) done List.prefix_rfl).bind fun done₁ u hle hu => ?_
    have hrest := ih (fun j hj => hsplits j (List.mem_cons_of_mem i hj))
      fun j hj done' hle' => h j (List.mem_cons_of_mem i hj) done' (hle.trans hle')
    refine (hrest.map (R := fun done' v => ∃ items' : List Item,
      v = separator (rest.map Item.write) ++ joinBlocks (items'.map Item.write) ∧
        items'.map Item.part = rest.map Item.part ∧ ∀ i ∈ items', Shows done' D i.content i.view)
      fun done' v _ hv => ?_).bind fun done₂ v hle' hv => .pure ?_
    · obtain ⟨items', rfl, hparts, hshows⟩ := hv
      exact ⟨items', rfl, hparts, hshows⟩
    · obtain ⟨items', rfl, hparts, hshows⟩ := hv
      -- The contents may change but not the number of steps, so there is a blank line where there was one.
      have hlength : (items'.map Item.write).isEmpty = (rest.map Item.write).isEmpty := by
        have hlength := congrArg List.length hparts
        simp only [List.length_map] at hlength
        cases items' <;> cases rest <;> simp_all
      refine ⟨⟨i.title, u, i.view⟩ :: items', ?_, by simp [hparts, Item.part], ?_⟩
      · have hseparator : separator (items'.map Item.write) = separator (rest.map Item.write) := by
          rw [separator, separator, hlength]
        rw [List.map_cons, joinBlocks_cons, hseparator]
        rfl
      · exact List.forall_mem_cons.2 ⟨hu.mono hle', hshows⟩

/-- A stretch that is passed over stays in front of what the pass makes of the rest. -/
theorem leads_append {Q R : List Text → Text → Prop} (hs : Refused read s t)
    (h : Leads done (Text.mapFoundM read write t) Q)
    (hR : ∀ done' u, done <+: done' → Q done' u → R done' (s ++ u)) :
    Leads done (Text.mapFoundM read write (s ++ t)) R := by
  rw [Text.mapFoundM_append hs]
  exact h.map hR

/-- A construct that is accepted is replaced, and then those in the rest. -/
theorem leads_found {Q R S : List Text → Text → Prop} {a : α} (hs : Solid s) (hread : read (s ++ t) = some (a, t))
    (ha : Leads done (write a) Q)
    (h : ∀ done', done <+: done' → Leads done' (Text.mapFoundM read write t) R)
    (hS : ∀ done₁ done₂ u v, done₁ <+: done₂ → Q done₁ u → R done₂ v → S done₂ (u ++ v)) :
    Leads done (Text.mapFoundM read write (s ++ t)) S := by
  rw [Text.mapFoundM_front hs.ne_nil hread]
  refine ha.bind fun done₁ u hle hu => ?_
  exact (h done₁ hle).bind fun done₂ v hle' hv => .pure (hS done₁ done₂ u v hle' hu hv)

section
variable {depth : Nat} {y : Text} {items : List Item}

/-- A component of the kind is replaced, its content being rendered. -/
theorem leads_box_of_eq (hp : Pass inner K read write) (hinner : Renders depth inner) {b : Box} (hb : b.kind ∈ D)
    (hK : b.kind = K) (hcard : D.card ≤ depth + 1) (hs : Shows done (D.erase b.kind) s y)
    (ht : ∀ done', done <+: done' →
      Leads done' (Text.mapFoundM read write t) fun done' u => Shows done' (D.erase K) u z) :
    Leads done (Text.mapFoundM read write (b.write s ++ t)) fun done' u =>
      Shows done' (D.erase K) u ((b.html (echo y)).write ++ z) := by
  have hmade := Made.gap (hs.made.append (.gap .nil))
  obtain ⟨a, body, hbody, hread, hwrite⟩ := hp.box hK (hK ▸ hmade.clear_endLine (Finset.notMem_erase _ _))
  have hshows : Shows done (D.erase b.kind) body y := by
    rcases hbody with rfl | rfl
    · exact hs.behind
    · exact hs.behind.gap
  have hinside : (D.erase b.kind).card ≤ depth := by
    rw [Finset.card_erase_of_mem hb]
    omega
  have ha := hwrite ▸ leads_box hinner b hinside hshows (D.erase K)
  exact leads_found (b.solid_write _) (hread t) ha ht fun done₁ done₂ u v hle hu hv => (hu.mono hle).append hv

/-- The pass works on the content of a component of another kind. -/
theorem leads_box_of_ne (hp : Pass inner K read write) {b : Box} (hb : b.kind ∈ D) (hK : b.kind ≠ K)
    (hapart : Apart K.startMark b.kind) (hsplits : Splits read s)
    (hs : Leads done (Text.mapFoundM read write s) fun done' u => Shows done' ((D.erase b.kind).erase K) u y)
    (ht : ∀ done', done <+: done' →
      Leads done' (Text.mapFoundM read write t) fun done' u => Shows done' (D.erase K) u z) :
    Leads done (Text.mapFoundM read write (b.write s ++ t)) fun done' u =>
      Shows done' (D.erase K) u ((b.html (echo y)).write ++ z) := by
  rw [Box.write, mapFoundM_wrap (hp.refused_lines hapart (.startLine b (by simp))).1
    (hp.refused_lines hapart (.endLine (by simp))).2 hsplits]
  refine hs.bind fun done₁ u hle₁ hu => (ht done₁ hle₁).bind fun done₂ v hle₂ hv => .pure ?_
  rw [Finset.erase_right_comm] at hu
  exact .box b (by simp [hK, hb]) (hu.mono hle₂) hv

theorem leads_steps_of_eq (hp : Pass inner K read write) (hinner : Renders depth inner) (hsteps : .steps ∈ D)
    (hK : K = .steps) (hcard : D.card ≤ depth + 1)
    (hitems : ∀ i ∈ items, Shows done (D.erase .steps) i.content i.view)
    (ht : ∀ done', done <+: done' →
      Leads done' (Text.mapFoundM read write t) fun done' u => Shows done' (D.erase K) u z) :
    Leads done (Text.mapFoundM read write (writeSteps (items.map Item.write) ++ t)) fun done' u =>
      Shows done' (D.erase K) u ((htmlOfSteps (items.map Item.part)).write ++ z) := by
  obtain ⟨a, hread, hwrite⟩ := hp.steps hK (Finset.notMem_erase _ _) fun i hi => (hitems i hi).made
  have hinside : (D.erase .steps).card ≤ depth := by
    rw [Finset.card_erase_of_mem hsteps]
    omega
  have ha := hwrite ▸ leads_placeSteps hinner hinside hitems (D.erase K)
  exact leads_found (solid_writeSteps _) (hread t) ha ht fun done₁ done₂ u v hle hu hv => (hu.mono hle).append hv

theorem leads_steps_of_ne (hp : Pass inner K read write) (hsteps : .steps ∈ D) (hK : K ≠ .steps)
    (hapart : Apart K.startMark .steps) (hsplits : ∀ i ∈ items, Splits read i.content)
    (hitems : ∀ i ∈ items, ∀ done', done <+: done' → Leads done' (Text.mapFoundM read write i.content)
      fun done' u => Shows done' ((D.erase .steps).erase K) u i.view)
    (ht : ∀ done', done <+: done' →
      Leads done' (Text.mapFoundM read write t) fun done' u => Shows done' (D.erase K) u z) :
    Leads done (Text.mapFoundM read write (writeSteps (items.map Item.write) ++ t)) fun done' u =>
      Shows done' (D.erase K) u ((htmlOfSteps (items.map Item.part)).write ++ z) := by
  rw [writeSteps, mapFoundM_wrap (hp.refused_lines hapart (.stepsLine (by simp))).1
    (hp.refused_lines hapart (.endLine (by simp))).2 (hp.splits_items hapart hsplits)]
  refine (hp.leads_items hapart hsplits hitems).bind fun done₁ u hle₁ hu => ?_
  refine (ht done₁ hle₁).bind fun done₂ v hle₂ hv => .pure ?_
  obtain ⟨items', rfl, hparts, hshows⟩ := hu
  rw [← hparts]
  refine .steps (by simp [hK.symm, hsteps]) (fun i hi => ?_) hv
  have hi := hshows i hi
  rw [Finset.erase_right_comm] at hi
  exact hi.mono hle₂

end

/-- After the pass the text shows what it has shown before, without components of the kind. Blocks are added along the
text, so the induction is for all blocks that may be there by then. -/
theorem leads (hp : Pass inner K read write) {depth : Nat} (hinner : Renders depth inner)
    (hD : ∀ k ∈ D, k ≠ K → Apart K.startMark k) (hcard : D.card ≤ depth + 1) (h : Shows done D t z) :
    ∀ done', done <+: done' →
      Leads done' (Text.mapFoundM read write t) fun done' u => Shows done' (D.erase K) u z := by
  induction h with
  | nil => exact fun done' _ => .pure (.nil _)
  | gap _ ih =>
    intro done' hle
    have hgap : Made ∅ ['\n'] := .gap .nil
    exact leads_append (hp.refused_bare hgap _) (ih hD hcard done' hle) fun _ _ _ hu => .gap hu
  | words p _ ih =>
    intro done' hle
    exact leads_append (hp.refused_bare (.ofPhrase p) _) (ih hD hcard done' hle) fun _ _ _ hu => .words p hu
  | held he hx _ ih =>
    intro done' hle
    exact leads_append (hp.refused_bare (.ofToken _) _) (ih hD hcard done' hle) fun done₁ _ hle₁ hu =>
      .held (getElem?_mono (hle.trans hle₁) he) hx hu
  | @box E _ _ _ _ b hb hs _ ihs ih =>
    intro done' hle
    have ht := fun done₁ hle₁ => ih hD hcard done₁ (hle.trans hle₁)
    have hinside : ∀ k ∈ E.erase b.kind, k ≠ K → Apart K.startMark k := fun k hk =>
      hD k (Finset.mem_of_mem_erase hk)
    by_cases hK : b.kind = K
    · exact hp.leads_box_of_eq hinner hb hK hcard (hs.mono hle) ht
    · exact hp.leads_box_of_ne hb hK (hD _ hb hK) (hp.splits hinside hs)
        (ihs hinside (Finset.card_erase_le.trans hcard) done' hle) ht
  | @steps E _ _ items hsteps hitems _ ihitems ih =>
    intro done' hle
    have ht := fun done₁ hle₁ => ih hD hcard done₁ (hle.trans hle₁)
    have hinside : ∀ k ∈ E.erase .steps, k ≠ K → Apart K.startMark k := fun k hk =>
      hD k (Finset.mem_of_mem_erase hk)
    by_cases hK : K = .steps
    · exact hp.leads_steps_of_eq hinner hsteps hK hcard (fun i hi => (hitems i hi).mono hle) ht
    · have hsplits : ∀ i ∈ items, Splits read i.content := fun i hi => hp.splits hinside (hitems i hi)
      refine hp.leads_steps_of_ne hsteps hK (hD _ hsteps (Ne.symm hK)) hsplits (fun i hi done₁ hle₁ => ?_) ht
      exact ihitems i hi hinside (Finset.card_erase_le.trans hcard) done₁ (hle.trans hle₁)

end Pass

end DocPages.Markup
