import DocPages.Proofs.Page.Leftover
import DocPages.Proofs.Page.Silent

/-!
# Calls of the engine

The engine of a renderer is a function, so its page does not tell how often the engine has been called. Here the engine
has effects: the same passes run around it in any monad, and with an engine without effects they give the page. So what
an engine counts, logs or refuses while a page is rendered is what it is called for. A text without component syntax is
handed to it once, as it stands.
-/

namespace DocPages

/-- Work on a page that may call an engine with effects. -/
abbrev Calling (m : Type → Type) : Type → Type := StateT Work m

variable {m : Type → Type} [Monad m]

/-- A step that calls no engine. -/
def Calling.of {α : Type} (step : StateM Work α) : Calling m α := fun w => pure (step.run w)

namespace Renderer

/-! ## Passes around an engine with effects -/

/-- Replaces constructs by placeholders, as `shelveAll` does. -/
def shelveAllIn {α : Type} (read : Reader Char α) (html : α → Calling m Html) (t : Text) : Calling m Text :=
  Text.mapFoundM read (fun a => do Calling.of (Work.shelve (← html a).write)) t

/-- Replaces groups of items, as `shelveGroups` does. -/
def shelveGroupsIn (name item : Text) (html : List Element.Labelled → Calling m Html) (t : Text) : Calling m Text :=
  Text.mapFoundM (Element.plain? name)
    (fun body => match found (Element.titled? item) body with
      | [] => return body
      | items => do Calling.of (Work.shelve (← html items).write)) t

/-- The passes behind those for code, in their order. -/
def passesIn (r : Renderer) (inner : Text → Calling m Text) : List (Text → Calling m Text) :=
  let described (name : Text) (html : Attributes → Text → Html) : Text → Calling m Text :=
    shelveAllIn (Element.described? name) fun e => return html e.attributes (← inner e.body)
  [shelveAllIn Element.callout? (fun e => return Element.callout e.label (← inner e.body)),
    shelveAllIn (Element.titled? "Accordion") (fun e => return Element.accordion e.label (← inner e.body)),
    shelveGroupsIn "Tabs" "Tab" (fun items => do
      let id ← Calling.of (Work.withIds (IdSupply.draw "tabs"))
      return Element.tabs id (← items.mapM fun e => return (e.label, ← inner e.body))),
    shelveGroupsIn "Steps" "Step" (fun items => do
      return Element.steps (← items.mapM fun e => return (e.label, ← inner e.body))),
    described "CardGroup" Element.cardGroup,
    described "Card" Element.card,
    described "APIEndpoint" Element.endpoint,
    shelveAllIn (Element.plain? "ParameterTable") (fun body => return Element.parameterTable (← inner body)),
    fun t => Calling.of (Api.placeComponents r.maxDepth t),
    shelveAllIn (Element.single? "ChildGrid") (fun as => return Element.childGrid as),
    described "BrowserMockup" Element.browserMockup]

/-- Replaces code and components, where `call` is the engine and `inner` renders regions. -/
def placeElementsIn (r : Renderer) (call : Text → m Text) (inner : Text → Calling m Text) (t : Text) :
    Calling m Text := do
  let t ← shelveAllIn Code.titled? (fun b => return b.html) t
  let t ← Code.replaceFenced (fun block => do Calling.of (Work.shelve (← StateT.lift (call block)))) t
  (r.passesIn inner).foldlM (fun t pass => pass t) t

/-- A region with at most `depth` components around each other, rendered around the engine `call`. -/
def renderWithinIn (r : Renderer) (call : Text → m Text) : (depth : Nat) → Text → Calling m Text
  | 0, t => StateT.lift (call t)
  | depth + 1, t => do
    let t ← r.placeElementsIn call (fun t => renderWithinIn r call depth (Text.strip t)) (Artifact.strip t)
    StateT.lift (call (Media.resolveAll r.mediaRoot r.resolve t))

/-- The page of a document with the engine `call` in the place of the renderer's own. -/
def pageIn (r : Renderer) (call : Text → m Text) (content : Text) : m Page :=
  if content.isEmpty then return ⟨[], [], []⟩
  else do
    let (fm, body) := FrontMatter.split content
    let (html, work) ← (r.renderWithinIn call (body.length + 1) body).run Work.fresh
    let html := work.shelf.restore html
    let leftovers := (work.shelf.leftovers html).map Issue.leftover
    return ⟨(endpointHeader fm).write ++ html, work.shelf.blocks, work.issues ++ leftovers⟩

end Renderer

/-! ## Engines without effects -/

namespace Calling

variable {α β : Type}

theorem of_pure (a : α) : (of (pure a) : Calling m α) = pure a := rfl

variable [LawfulMonad m]

theorem lift_pure (a : α) : (StateT.lift (pure a) : Calling m α) = pure a := by
  funext w
  exact (pure_bind a _ : (pure a >>= fun a => pure (a, w) : m (α × Work)) = pure (a, w))

theorem of_bind (step : StateM Work α) (next : α → StateM Work β) :
    (of (step >>= next) : Calling m β) = of step >>= fun a => of (next a) := by
  funext w
  have hbind : (pure (step.run w) >>= fun p => pure ((next p.1).run p.2) : m (β × Work)) =
      pure ((next (step.run w).1).run (step.run w).2) := pure_bind _ _
  exact hbind.symm

theorem of_mapM (step : α → StateM Work β) (as : List α) :
    (of (as.mapM step) : Calling m (List β)) = as.mapM fun a => of (step a) := by
  induction as with
  | nil => rfl
  | cons a as ih => simp only [List.mapM_cons, of_bind, of_pure, ih]

theorem of_mapFoundM (read : Reader Char α) (write : α → StateM Work Text) (t : Text) :
    (of (Text.mapFoundM read write t) : Calling m Text) = Text.mapFoundM read (fun a => of (write a)) t := by
  rw [Text.mapFoundM, Text.mapFoundM]
  induction pieces read t with
  | nil => rfl
  | cons p ps ih => cases p <;> simp only [Text.mapFoundM.go, of_bind, of_pure, ih]

theorem of_replaceFenced (write : Text → StateM Work Text) (t : Text) :
    (of (Code.replaceFenced write t) : Calling m Text) = Code.replaceFenced (fun block => of (write block)) t := by
  rw [Code.replaceFenced, of_bind, of_mapM]
  refine congrArg₂ _ (congrArg (List.mapM · _) (funext fun p => ?_)) rfl
  cases p <;> rfl

theorem of_foldlM (passes : List (Text → StateM Work Text)) (t : Text) :
    (of (passes.foldlM (fun t pass => pass t) t) : Calling m Text) =
      (passes.map fun (pass : Text → StateM Work Text) (t : Text) => (of (pass t) : Calling m Text)).foldlM
        (fun t pass => pass t) t := by
  induction passes generalizing t with
  | nil => rfl
  | cons pass passes ih => simp only [List.foldlM_cons, List.map_cons, of_bind, ih]

end Calling

namespace Renderer

open Calling

variable [LawfulMonad m]

section
variable {α : Type}

theorem shelveAllIn_of (read : Reader Char α) (html : α → StateM Work Html) (t : Text) :
    (shelveAllIn read (fun a => of (html a)) t : Calling m Text) = of (shelveAll read html t) := by
  simp only [shelveAllIn, shelveAll, of_mapFoundM, of_bind]

theorem shelveGroupsIn_of (name item : Text) (html : List Element.Labelled → StateM Work Html) (t : Text) :
    (shelveGroupsIn name item (fun items => of (html items)) t : Calling m Text) =
      of (shelveGroups name item html t) := by
  rw [shelveGroupsIn, shelveGroups, of_mapFoundM]
  refine congrArg (Text.mapFoundM _ · t) (funext fun body => ?_)
  cases found (Element.titled? item) body with
  | nil => rfl
  | cons e items => exact (of_bind _ _).symm

end

/-- Passes whose regions are rendered without effects have none. -/
theorem passesIn_of (r : Renderer) (inner : Text → StateM Work Text) :
    (r.passesIn fun t => (of (inner t) : Calling m Text)) = (r.passes inner).map fun pass t => of (pass t) := by
  have hregion {α : Type} (f : Text → α) (t : Text) :
      (of (do return f (← inner t)) : Calling m α) = do return f (← of (inner t)) := of_bind _ _
  have hcomponent {α : Type} (read : Reader Char α) (body : α → Text) (html : α → Text → Html) :
      shelveAllIn read (fun a => do return html a (← (of (inner (body a)) : Calling m Text))) =
        fun t => of (shelveAll read (fun a => do return html a (← inner (body a))) t) := by
    funext t
    simp only [← shelveAllIn_of, hregion]
  have hitems (items : List Element.Labelled) :
      (of (items.mapM fun e => do return (e.label, ← inner e.body)) : Calling m (List (Text × Text))) =
        items.mapM fun e => do return (e.label, ← of (inner e.body)) := by
    simp only [of_mapM, hregion]
  unfold passesIn passes
  simp only [List.map_cons, List.map_nil, List.cons.injEq, and_true, true_and]
  refine ⟨hcomponent _ _ _, hcomponent _ _ _, funext fun t => ?_, funext fun t => ?_, hcomponent _ _ _, hcomponent _ _ _,
    hcomponent _ _ _, hcomponent _ _ _, ?_, hcomponent _ _ _⟩
  · rw [placeTabs, ← shelveGroupsIn_of]
    simp only [of_bind, of_pure, hitems]
  · rw [← shelveGroupsIn_of]
    simp only [of_bind, of_pure, hitems]
  · funext t
    exact shelveAllIn_of _ (fun as => pure (Element.childGrid as)) t

theorem placeElementsIn_of (r : Renderer) (inner : Text → StateM Work Text) (t : Text) :
    r.placeElementsIn (fun t => (pure (r.engine t) : m Text)) (fun t => of (inner t)) t = of (r.placeElements inner t) := by
  have hfence (block : Text) : (do of (Work.shelve (← StateT.lift (pure (r.engine block)))) : Calling m Text) =
      of (Work.shelve (r.engine block)) := by
    rw [lift_pure, pure_bind]
  have htitled (t : Text) : (shelveAllIn Code.titled? (fun b : Code.Titled => pure b.html) t : Calling m Text) =
      of (shelveAll Code.titled? (fun b => pure b.html) t) := shelveAllIn_of _ (fun b : Code.Titled => pure b.html) t
  rw [placeElements_eq]
  simp only [placeElementsIn, of_bind, of_replaceFenced, of_foldlM, passesIn_of, hfence, htitled]

theorem renderWithinIn_of (r : Renderer) (depth : Nat) (t : Text) :
    r.renderWithinIn (fun t => (pure (r.engine t) : m Text)) depth t = of (r.renderWithin depth t) := by
  induction depth generalizing t with
  | zero => exact lift_pure _
  | succ depth ih =>
    rw [renderWithinIn, renderWithin, of_bind]
    simp only [ih, placeElementsIn_of, lift_pure]
    rfl

/-- With an engine without effects the page is that of the renderer. -/
theorem pageIn_pure (r : Renderer) (content : Text) :
    r.pageIn (fun t => (pure (r.engine t) : m Text)) content = pure (r.page content) := by
  unfold pageIn page
  split
  · rfl
  · have hrun (body : Text) : (of (r.render body) : Calling m Text).run Work.fresh =
        pure ((r.render body).run Work.fresh) := rfl
    simp only [renderWithinIn_of]
    rw [← render, hrun, pure_bind]
    generalize FrontMatter.split content = parts
    obtain ⟨fm, body⟩ := parts
    generalize (r.render body).run Work.fresh = out
    rfl

end Renderer

/-! ## Texts without component syntax -/

namespace Silent

variable [LawfulMonad m] {t : Text}

theorem passesIn (h : Silent (constructMarks ++ laterMarks) t) (r : Renderer) (inner : Text → Calling m Text) :
    ∀ pass ∈ r.passesIn inner, pass t = pure t := by
  have hread {α : Type} {read : Reader Char α} {part : Text} (hbegins : Begins read part)
      (hpart : part ∈ constructMarks ++ laterMarks) (write : α → Calling m Text) : Text.mapFoundM read write t = pure t :=
    Text.mapFoundM_of_refused (h.refused hbegins hpart)
  have hapi : (Calling.of (Api.placeComponents r.maxDepth t) : Calling m Text) = pure t := by
    rw [(h.of_subset (List.subset_append_right _ _)).placeComponents, Calling.of_pure]
  simp only [Renderer.passesIn, Renderer.shelveAllIn, Renderer.shelveGroupsIn, List.forall_mem_cons]
  exact ⟨hread Markup.begins_callout (by decide) _, hread (Markup.begins_titled _) (by decide) _,
    hread (Markup.begins_plain _) (by decide) _, hread (Markup.begins_plain _) (by decide) _,
    hread (Markup.begins_described _) (by decide) _, hread (Markup.begins_described _) (by decide) _,
    hread (Markup.begins_described _) (by decide) _, hread (Markup.begins_plain _) (by decide) _, hapi,
    hread (Markup.begins_single _) (by decide) _, hread (Markup.begins_described _) (by decide) _, by simp⟩

theorem placeElementsIn (h : Silent (constructMarks ++ laterMarks) t) (r : Renderer) (call : Text → m Text)
    (inner : Text → Calling m Text) : r.placeElementsIn call inner t = pure t := by
  have htitled : (Renderer.shelveAllIn Code.titled? (fun b => return b.html) t : Calling m Text) = pure t :=
    Text.mapFoundM_of_refused (h.refused Markup.begins_code (by decide))
  have hfenced (write : Text → Calling m Text) : Code.replaceFenced write t = pure t :=
    Code.replaceFenced_of_no_fence (fun c hc => h _ (by rcases hc with rfl | rfl <;> decide)) write
  rw [Renderer.placeElementsIn, htitled, pure_bind, hfenced, pure_bind, foldlM_of_pure (h.passesIn r inner)]

/-- A text without any marks is what the engine is called with, once. -/
theorem renderWithinIn (h : Silent (constructMarks ++ laterMarks) t)
    (hsections : ∀ line ∈ Text.lines t, Artifact.saysEmpty line = false) (r : Renderer) (call : Text → m Text)
    (depth : Nat) : r.renderWithinIn call depth t = StateT.lift (call t) := by
  cases depth with
  | zero => rfl
  | succ depth =>
    have hstrip : Artifact.strip t = t := Markup.strip_eq_self (h.refused Markup.begins_mark (by decide)) hsections
    have hlater : Silent laterMarks t := h.of_subset (List.subset_append_right _ _)
    rw [Renderer.renderWithinIn, hstrip, h.placeElementsIn, pure_bind, hlater.resolveAll]

end Silent

/-- What component syntax begins with. -/
def syntaxMarks : List Text := ["<", Element.colons, Code.backticks, "~~~", "!["]

/-- **A document without component syntax is what the engine makes of it**: in any monad its page is rendered by one call
of the engine, with the document as it stands, and nothing is put on the shelf or reported. -/
theorem page_of_silent [LawfulMonad m] {content : Text} (hne : content ≠ []) (hfront : ¬ ("---" : Text) <+: content)
    (hmarks : Silent syntaxMarks content) (hsections : ∀ line ∈ Text.lines content, Artifact.saysEmpty line = false)
    (r : Renderer) (call : Text → m Text) :
    r.pageIn call content = (do return ⟨← call content, [], []⟩) ∧ r.page content = ⟨r.engine content, [], []⟩ := by
  have hall : Silent (constructMarks ++ laterMarks) content := hmarks.of_parts (by decide)
  have hpage {m : Type → Type} [Monad m] [LawfulMonad m] (call : Text → m Text) :
      r.pageIn call content = (do return ⟨← call content, [], []⟩) := by
    have hrun : (StateT.lift (call content) : Calling m Text).run Work.fresh =
        (do return (← call content, Work.fresh)) := rfl
    rw [Renderer.pageIn, if_neg (by simpa using hne), FrontMatter.split_of_no_fence hfront]
    simp only [hall.renderWithinIn hsections, hrun, bind_assoc, pure_bind]
    rfl
  refine ⟨hpage call, ?_⟩
  exact (r.pageIn_pure content).symm.trans (hpage (m := Id) fun t => pure (r.engine t))

/-- An engine that logs its calls is called with the document only. -/
theorem page_of_silent_logged :
    let content : Text := "# No headers here!\n\n* a: b ~ [c](/_r2/d.png) > e\n---\n"
    let r : Renderer := ⟨echo, id, "/_r2/", 4⟩
    let log (t : Text) : StateM (List Text) Text := do modify (· ++ [t]); return echo t
    content ≠ [] ∧ ¬ ("---" : Text) <+: content ∧ Silent syntaxMarks content ∧
      (∀ line ∈ Text.lines content, Artifact.saysEmpty line = false) ∧
      (r.pageIn log content).run [] = (⟨echo content, [], []⟩, [content]) ∧ r.page content = ⟨echo content, [], []⟩ := by
  intro content r log
  have hne : content ≠ [] := by decide
  have hfront : ¬ ("---" : Text) <+: content := by decide
  have hmarks : Silent syntaxMarks content := by decide
  have hsections : ∀ line ∈ Text.lines content, Artifact.saysEmpty line = false := by decide
  obtain ⟨hcalls, hpage⟩ := page_of_silent hne hfront hmarks hsections r log
  refine ⟨hne, hfront, hmarks, hsections, ?_, hpage⟩
  rw [hcalls]
  rfl

end DocPages
