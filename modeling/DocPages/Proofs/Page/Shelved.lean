import DocPages.Page.Render
import DocPages.Proofs.Page.Anatomy
import DocPages.Proofs.Shelf.Leftover

/-!
# What is put on the shelf

Every pass puts what a template is filled with on the shelf, and the pass over fenced code what the engine makes of it.
What holds of all of these holds of all blocks of a page. So all blocks are framed as soon as the engine frames its
output.
-/

namespace DocPages

open DocPages.Shelf (Framed)

/-- What is found has been read at some place. -/
theorem exists_read_of_mem_pieces {β α : Type} {read : Reader β α} {a : α} {t : List β} (h : .found a ∈ pieces read t) :
    ∃ u rest, read u = some (a, rest) := by
  suffices hfrom : ∀ skip, .found a ∈ piecesFrom read skip t → ∃ u rest, read u = some (a, rest) from hfrom 0 h
  intro skip hmem
  clear h
  induction t generalizing skip with
  | nil => cases skip <;> cases hmem
  | cons b t ih =>
    cases skip with
    | succ skip => exact ih skip hmem
    | zero =>
      rw [piecesFrom] at hmem
      split at hmem
      · next a' rest hread =>
        rcases List.mem_cons.1 hmem with hfound | hmem
        · cases hfound
          exact ⟨b :: t, rest, hread⟩
        · exact ih _ hmem
      · exact ih 0 ((List.mem_cons.1 hmem).resolve_left (by simp))

/-- The step puts only fragments with the property on the shelf. -/
def Puts {α : Type} (P : Text → Prop) (step : StateM Work α) : Prop :=
  ∀ w, ∀ b ∈ (step.run w).2.shelf.blocks, b ∈ w.shelf.blocks ∨ P b

namespace Puts

variable {α β : Type} {P : Text → Prop}

theorem pure (a : α) : Puts P (Pure.pure a) := fun _ _ hb => .inl hb

/-- What follows a step may rely on what the step gives. -/
theorem bind_of {step : StateM Work α} {next : α → StateM Work β} {Q : α → Prop} (h : Puts P step)
    (hq : ∀ w, Q (step.run w).1) (hn : ∀ a, Q a → Puts P (next a)) : Puts P (step >>= next) := by
  intro w b hb
  rw [StateT.run_bind] at hb
  rcases hn _ (hq w) _ b hb with hb | hb
  · exact h w b hb
  · exact .inr hb

theorem bind {step : StateM Work α} {next : α → StateM Work β} (h : Puts P step)
    (hn : ∀ a, Puts P (next a)) : Puts P (step >>= next) :=
  h.bind_of (Q := fun _ => True) (fun _ => trivial) fun a _ => hn a

theorem withIds (step : StateM IdSupply α) : Puts P (Work.withIds step) := fun _ _ hb => .inl hb

theorem report (issue : Issue) : Puts P (Work.report issue) := fun _ _ hb => .inl hb

theorem shelve {block : Text} (h : P block) : Puts P (Work.shelve block) := by
  intro w b hb
  have hb : b ∈ w.shelf.blocks ++ [block] := hb
  rcases List.mem_append.1 hb with hb | hb
  · exact .inl hb
  · exact .inr (List.mem_singleton.1 hb ▸ h)

theorem mapM {step : α → StateM Work β} (h : ∀ a, Puts P (step a)) (as : List α) :
    Puts P (as.mapM step) := by
  induction as with
  | nil => exact pure []
  | cons a as ih =>
    rw [List.mapM_cons]
    exact (h a).bind fun b => ih.bind fun bs => pure (b :: bs)

theorem foldlM {step : β → α → StateM Work β} (h : ∀ b a, Puts P (step b a)) (as : List α) (b : β) :
    Puts P (as.foldlM step b) := by
  induction as generalizing b with
  | nil => exact pure b
  | cons a as ih =>
    rw [List.foldlM_cons]
    exact (h b a).bind ih

/-- What is written for a construct may rely on its having been read. -/
theorem mapFoundM_of {read : Reader Char α} {write : α → StateM Work Text}
    (h : ∀ a, (∃ u rest, read u = some (a, rest)) → Puts P (write a)) (t : Text) :
    Puts P (Text.mapFoundM read write t) := by
  have hpieces : ∀ a, .found a ∈ pieces read t → Puts P (write a) := fun a ha => h a (exists_read_of_mem_pieces ha)
  rw [Text.mapFoundM]
  generalize pieces read t = ps at hpieces
  induction ps with
  | nil => exact pure []
  | cons p ps ih =>
    have hrest : Puts P (Text.mapFoundM.go write ps) := ih fun a ha => hpieces a (List.mem_cons_of_mem p ha)
    cases p with
    | kept c => exact hrest.bind fun u => pure (c :: u)
    | found a => exact (hpieces a List.mem_cons_self).bind fun u => hrest.bind fun v => pure (u ++ v)

theorem mapFoundM {read : Reader Char α} {write : α → StateM Work Text} (h : ∀ a, Puts P (write a))
    (t : Text) : Puts P (Text.mapFoundM read write t) := mapFoundM_of (fun a _ => h a) t

theorem replaceFenced {write : Text → StateM Work Text} (h : ∀ t, Puts P (write t)) (t : Text) :
    Puts P (Code.replaceFenced write t) := by
  refine (mapM (fun p => ?_) _).bind fun parts => pure _
  cases p with
  | kept line => exact pure line
  | found block => exact h _

end Puts

/-! ## Elements -/

def Html.IsElement (h : Html) : Prop := ∃ tag attrs body, h = .element tag attrs body

theorem Tag.ends_of_name (tag : Tag) :
    tag.name ≠ [] ∧ tag.name.head? ≠ some '/' ∧ tag.name.getLast? ≠ some 'p' := by
  cases tag <;> decide

theorem Html.IsElement.framed {h : Html} (hh : h.IsElement) : Framed h.write := by
  obtain ⟨tag, attrs, body, rfl⟩ := hh
  obtain ⟨hname, hslash, hp⟩ := tag.ends_of_name
  have hwrite : (Html.element tag attrs body).write =
      '<' :: (tag.name ++ (attrs.flatMap Attr.write ++ ">" ++ body.write ++ "</" ++ tag.name ++ ">")) := by
    simp [Html.write]
  constructor
  · obtain ⟨c, u, hc⟩ := List.exists_cons_of_ne_nil hname
    right
    refine ⟨c, u ++ (attrs.flatMap Attr.write ++ ">" ++ body.write ++ "</" ++ tag.name ++ ">"), ?_, ?_⟩
    · simpa [hc] using hslash
    · rw [hwrite, hc, List.cons_append]
  · obtain ⟨v, d, hd⟩ := (List.eq_nil_or_concat tag.name).resolve_left hname
    right
    refine ⟨'<' :: ((v ++ [d]) ++ (attrs.flatMap Attr.write ++ ">" ++ body.write ++ "</" ++ v)), d, ?_, ?_⟩
    · simpa [hd] using hp
    · rw [hwrite, hd]
      simp

/-! ## The passes -/

open Html (IsElement)

theorem isElement_card (as : Attributes) (inner : Text) : (Element.card as inner).IsElement := by
  unfold Element.card
  simp only
  split <;> exact ⟨_, _, _, rfl⟩

/-- The class of the box around the card of a kind. -/
def Api.Component.cardClass : Component → Text
  | security => "doc-api-security"
  | parameters => "doc-api-params"
  | request => "doc-api-request-body"
  | responses => "doc-api-responses"

theorem box_of_requestBody {maxDepth : Int} {v : Json} {s : IdSupply} {card : Html}
    (h : ((Api.requestBody maxDepth v).run s).1 = some card) :
    ∃ body, card = .div Api.Component.request.cardClass body := by
  rw [Api.requestBody, StateT.run_bind] at h
  simp only [bind] at h
  split at h
  · cases h
  · cases h
    exact ⟨_, rfl⟩

theorem box_of_responses {maxDepth : Int} {v : Json} {s : IdSupply} {card : Html}
    (h : ((Api.responses maxDepth v).run s).1 = some card) :
    ∃ body, card = .div Api.Component.responses.cardClass body := by
  unfold Api.responses at h
  split at h
  · cases h
    exact ⟨_, rfl⟩
  · cases h

/-- A card of the API reference is a box of the class of its kind. -/
theorem box_of_render {c : Api.Component} {maxDepth : Int} {v : Json} {s : IdSupply} {card : Html}
    (h : ((c.render maxDepth v).run s).1 = some card) : ∃ body, card = .div c.cardClass body := by
  cases c with
  | security =>
    have h : Api.security v = some card := h
    unfold Api.security at h
    split at h
    · cases h
    · cases h
      exact ⟨_, rfl⟩
  | parameters =>
    have h : Api.parameters maxDepth v = some card := h
    unfold Api.parameters at h
    split at h
    · cases h
    · cases h
      exact ⟨_, rfl⟩
  | request => exact box_of_requestBody h
  | responses => exact box_of_responses h

theorem isElement_of_render {c : Api.Component} {maxDepth : Int} {v : Json} {s : IdSupply} {card : Html}
    (h : ((c.render maxDepth v).run s).1 = some card) : card.IsElement := by
  obtain ⟨body, rfl⟩ := box_of_render h
  exact ⟨_, _, _, rfl⟩

/-- What the engine makes of code, and what comes of a template that is filled. The attributes of a component have been
read in its tag, where no closing bracket stands. -/
structure Renderer.Fills (r : Renderer) (P : Text → Prop) : Prop where
  engine (t : Text) : P (r.engine t)
  code (b : Code.Titled) : P b.html.write
  callout (kind inner : Text) : P (Element.callout kind inner).write
  accordion (title inner : Text) : P (Element.accordion title inner).write
  tabs (id : Text) (parts : List (Text × Text)) : P (Element.tabs id parts).write
  steps (parts : List (Text × Text)) : P (Element.steps parts).write
  cardGroup (inside inner : Text) (h : '>' ∉ inside) : P (Element.cardGroup (Attributes.parse inside) inner).write
  card (inside inner : Text) (h : '>' ∉ inside) : P (Element.card (Attributes.parse inside) inner).write
  endpoint (inside inner : Text) (h : '>' ∉ inside) : P (Element.endpoint (Attributes.parse inside) inner).write
  parameterTable (inner : Text) : P (Element.parameterTable inner).write
  fault (c : Api.Component) (f : Api.Fault) : P (Api.faultBox c f).write
  apiCard (c : Api.Component) (body : Html) : P (Html.div c.cardClass body).write
  childGrid (as : Attributes) : P (Element.childGrid as).write
  browserMockup (inside inner : Text) (h : '>' ∉ inside) :
    P (Element.browserMockup (Attributes.parse inside) inner).write

/-- The step gives a fragment with the property and puts only such on the shelf. -/
structure Gives (P : Text → Prop) (step : StateM Work Html) : Prop where
  puts : Puts P step
  gives : ∀ w, P (step.run w).1.write

namespace Gives

variable {P : Text → Prop}

theorem pure {h : Html} (hh : P h.write) : Gives P (Pure.pure h) := ⟨.pure h, fun _ => hh⟩

theorem bind {α : Type} {step : StateM Work α} {next : α → StateM Work Html} (h : Puts P step)
    (hn : ∀ a, Gives P (next a)) : Gives P (step >>= next) where
  puts := h.bind fun a => (hn a).puts
  gives := by
    intro w
    rw [StateT.run_bind]
    exact (hn _).gives _

theorem shelve {step : StateM Work Html} (h : Gives P step) : Puts P (do Work.shelve (← step).write) :=
  h.puts.bind_of h.gives fun _ hh => .shelve hh

end Gives

namespace Renderer

section
variable {P : Text → Prop} {r : Renderer}

theorem Fills.place (h : r.Fills P) (maxDepth : Int) (c : Api.Component) (o : Api.Occurrence) :
    Puts P (Api.place maxDepth c o) := by
  have hreject (f : Api.Fault) : Puts P (Api.reject c f) := (Puts.report _).bind fun _ => .shelve (h.fault c f)
  cases o with
  | bare => exact .pure []
  | unclosed => exact hreject .unbalanced
  | payload raw =>
    cases hp : Api.payload? raw with
    | none =>
      simp only [Api.place, hp]
      exact hreject .invalid
    | some payload =>
      simp only [Api.place, hp]
      refine (Puts.withIds _).bind_of (Q := fun o => ∀ card, o = some card → P card.write) ?_ ?_
      · intro w card hcard
        obtain ⟨body, rfl⟩ := box_of_render hcard
        exact h.apiCard c body
      · intro o ho
        cases o with
        | none => exact .pure []
        | some card => exact (Puts.shelve (ho card rfl)).bind fun held => .pure _

theorem Fills.placeComponents (h : r.Fills P) (maxDepth : Int) (t : Text) : Puts P (Api.placeComponents maxDepth t) := by
  refine (Puts.foldlM (fun t c => ?_) Api.Component.all t).bind fun t => .withIds _
  exact .mapFoundM (h.place maxDepth c) t

theorem puts_shelveAll {α : Type} {html : α → StateM Work Html} (h : ∀ a, Gives P (html a))
    (read : Reader Char α) (t : Text) : Puts P (shelveAll read html t) :=
  .mapFoundM (fun a => (h a).shelve) t

theorem puts_shelveGroups {html : List Element.Labelled → StateM Work Html}
    (h : ∀ items, Gives P (html items)) (name item t : Text) : Puts P (shelveGroups name item html t) := by
  refine .mapFoundM (fun body => ?_) t
  split
  · exact .pure body
  · exact (h _).shelve

theorem puts_described {name : Text} {html : Attributes → Text → Html} {inner : Text → StateM Work Text}
    (hinner : ∀ t, Puts P (inner t))
    (h : ∀ inside inner, '>' ∉ inside → P (html (Attributes.parse inside) inner).write) (t : Text) :
    Puts P (shelveAll (Element.described? name)
      (fun e : Element.Described => do return html e.attributes (← inner e.body)) t) := by
  refine .mapFoundM_of (fun e he => Gives.shelve (.bind (hinner _) fun u => .pure ?_)) t
  obtain ⟨t', rest, hread⟩ := he
  obtain ⟨inside, hinside, hparse, -⟩ := Element.described?_eq_some hread
  exact hparse ▸ h inside u hinside

/-- The passes over a region put on the shelf what the templates are filled with, if the regions inside do. -/
theorem Fills.placeElements (hr : r.Fills P) {inner : Text → StateM Work Text} (h : ∀ t, Puts P (inner t)) (t : Text) :
    Puts P (r.placeElements inner t) := by
  unfold Renderer.placeElements
  refine (puts_shelveAll (fun b => .pure (hr.code b)) _ _).bind fun t => ?_
  refine (Puts.replaceFenced (fun block => .shelve (hr.engine block)) t).bind fun t => ?_
  refine (puts_shelveAll (fun e => .bind (h _) fun u => .pure (hr.callout _ u)) _ t).bind fun t => ?_
  refine (puts_shelveAll (fun e => .bind (h _) fun u => .pure (hr.accordion _ u)) _ t).bind fun t => ?_
  refine (puts_shelveGroups (fun items => ?_) _ _ t).bind fun t => ?_
  · refine .bind (.withIds _) fun id => .bind (.mapM (fun e => ?_) items) fun parts => .pure (hr.tabs id parts)
    exact (h _).bind fun u => .pure _
  refine (puts_shelveGroups (fun items => ?_) _ _ t).bind fun t => ?_
  · refine .bind (.mapM (fun e => ?_) items) fun parts => .pure (hr.steps parts)
    exact (h _).bind fun u => .pure _
  refine (puts_described h hr.cardGroup t).bind fun t => ?_
  refine (puts_described h hr.card t).bind fun t => ?_
  refine (puts_described h hr.endpoint t).bind fun t => ?_
  refine (puts_shelveAll (fun body => .bind (h _) fun u => .pure (hr.parameterTable u)) _ t).bind fun t => ?_
  refine (hr.placeComponents r.maxDepth t).bind fun t => ?_
  refine (puts_shelveAll (fun as => .pure (hr.childGrid as)) _ t).bind fun t => ?_
  exact puts_described h hr.browserMockup t

theorem Fills.renderWithin (hr : r.Fills P) (depth : Nat) (t : Text) : Puts P (r.renderWithin depth t) := by
  induction depth generalizing t with
  | zero => exact .pure (r.engine t)
  | succ depth ih =>
    rw [Renderer.renderWithin]
    exact (hr.placeElements (fun t => ih (Text.strip t)) _).bind fun t => .pure _

/-- What holds of the engine's output and of all templates holds of all blocks of a page. -/
theorem Fills.of_mem_blocks (hr : r.Fills P) (t : Text) : ∀ b ∈ ((r.render t).run Work.fresh).2.shelf.blocks, P b := by
  have hrender : Puts P (r.render t) := hr.renderWithin (t.length + 1) t
  intro b hb
  exact (hrender Work.fresh b hb).resolve_left (by simp [Work.fresh, Shelf.empty])

end

theorem fills_framed {r : Renderer} (hengine : ∀ t, Framed (r.engine t)) : r.Fills Framed where
  engine := hengine
  code _ := IsElement.framed ⟨_, _, _, rfl⟩
  callout _ _ := IsElement.framed ⟨_, _, _, rfl⟩
  accordion _ _ := IsElement.framed ⟨_, _, _, rfl⟩
  tabs _ _ := IsElement.framed ⟨_, _, _, rfl⟩
  steps _ := IsElement.framed ⟨_, _, _, rfl⟩
  cardGroup _ _ _ := IsElement.framed ⟨_, _, _, rfl⟩
  card _ _ _ := (isElement_card _ _).framed
  endpoint _ _ _ := IsElement.framed ⟨_, _, _, rfl⟩
  parameterTable _ := IsElement.framed ⟨_, _, _, rfl⟩
  fault _ _ := IsElement.framed ⟨_, _, _, rfl⟩
  apiCard _ _ := IsElement.framed ⟨_, _, _, rfl⟩
  childGrid _ := IsElement.framed ⟨_, _, _, rfl⟩
  browserMockup _ _ _ := IsElement.framed ⟨_, _, _, rfl⟩

/-- All blocks of a page are framed, if the engine frames what it gives. -/
theorem framed_of_mem_blocks {r : Renderer} (hengine : ∀ t, Framed (r.engine t)) (t : Text) :
    ∀ b ∈ ((r.render t).run Work.fresh).2.shelf.blocks, Framed b := (fills_framed hengine).of_mem_blocks t

end Renderer

end DocPages
