import DocPages.Proofs.Page.Anatomy
import DocPages.Proofs.Page.Shelved

/-!
# The shelf grows

Rendering is built from a few operations: ids are drawn, issues reported and blocks shelved. None of them takes a
block off the shelf or changes one, so what is on it at one time is a beginning of what is on it later.
-/

namespace DocPages

theorem Work.run_bind {α β : Type} (step : StateM Work α) (next : α → StateM Work β) (w : Work) :
    (step >>= next).run w = (next (step.run w).1).run (step.run w).2 := rfl

theorem Work.run_bind_pure {α β : Type} (step : StateM Work α) (f : α → β) (w : Work) :
    ((step >>= fun a => pure (f a)).run w).2 = (step.run w).2 := rfl

/-- A step that is put together from the operations of `Work`. -/
inductive Built : {α : Type} → StateM Work α → Prop where
  | pure {α : Type} (a : α) : Built (Pure.pure a)
  | bind {α β : Type} {step : StateM Work α} {next : α → StateM Work β} (h : Built step)
      (hn : ∀ a, Built (next a)) : Built (step >>= next)
  | withIds {α : Type} (step : StateM IdSupply α) : Built (Work.withIds step)
  | report (issue : Issue) : Built (Work.report issue)
  | shelve (block : Text) : Built (Work.shelve block)

namespace Built

variable {α β : Type}

theorem grows {step : StateM Work α} (h : Built step) (w : Work) :
    w.shelf.blocks <+: (step.run w).2.shelf.blocks := by
  induction h generalizing w with
  | pure a => exact List.prefix_rfl
  | bind _ _ ih ihn => exact (ih w).trans (ihn _ _)
  | withIds step => exact List.prefix_rfl
  | report issue => exact List.prefix_rfl
  | shelve block => exact List.prefix_append w.shelf.blocks [block]

theorem mapM {step : α → StateM Work β} (h : ∀ a, Built (step a)) (as : List α) : Built (as.mapM step) := by
  induction as with
  | nil => exact pure []
  | cons a as ih =>
    rw [List.mapM_cons]
    exact (h a).bind fun b => ih.bind fun bs => pure (b :: bs)

theorem foldlM {step : β → α → StateM Work β} (h : ∀ b a, Built (step b a)) (as : List α) (b : β) :
    Built (as.foldlM step b) := by
  induction as generalizing b with
  | nil => exact pure b
  | cons a as ih =>
    rw [List.foldlM_cons]
    exact (h b a).bind ih

theorem mapFoundM {read : Reader Char α} {write : α → StateM Work Text} (h : ∀ a, Built (write a)) (t : Text) :
    Built (Text.mapFoundM read write t) := by
  rw [Text.mapFoundM]
  induction pieces read t with
  | nil => exact pure []
  | cons p ps ih =>
    cases p with
    | kept c => exact ih.bind fun u => pure (c :: u)
    | found a => exact (h a).bind fun u => ih.bind fun v => pure (u ++ v)

theorem replaceLines {write : Text → StateM Work Text} (h : ∀ t, Built (write t)) (ls : List Text) :
    Built (Code.replaceLines write ls) := by
  refine mapM (fun p => ?_) _
  cases p with
  | kept line => exact pure line
  | found block => exact h _

theorem replaceFenced {write : Text → StateM Work Text} (h : ∀ t, Built (write t)) (t : Text) :
    Built (Code.replaceFenced write t) :=
  (replaceLines h _).bind fun _ => pure _

end Built

/-! ## The passes -/

/-- Passes that leave a text as it is. -/
theorem foldlM_of_pure {m : Type → Type} [Monad m] [LawfulMonad m] {passes : List (Text → m Text)} {t : Text}
    (h : ∀ pass ∈ passes, pass t = pure t) : passes.foldlM (fun t pass => pass t) t = pure t := by
  induction passes with
  | nil => rfl
  | cons pass passes ih =>
    rw [List.foldlM_cons, h pass List.mem_cons_self, pure_bind]
    exact ih fun p hp => h p (List.mem_cons_of_mem pass hp)

theorem built_all {passes : List (Text → StateM Work Text)} (h : ∀ pass ∈ passes, ∀ t, Built (pass t)) (t : Text) :
    Built (passes.foldlM (fun t pass => pass t) t) := by
  induction passes generalizing t with
  | nil => exact .pure t
  | cons pass passes ih =>
    rw [List.foldlM_cons]
    exact (h pass List.mem_cons_self t).bind fun u => ih (fun p hp => h p (List.mem_cons_of_mem pass hp)) u

theorem built_reject (c : Api.Component) (f : Api.Fault) : Built (Api.reject c f) :=
  (Built.report _).bind fun _ => .shelve _

theorem built_place (maxDepth : Int) (c : Api.Component) (o : Api.Occurrence) : Built (Api.place maxDepth c o) := by
  cases o with
  | bare => exact .pure []
  | unclosed => exact built_reject c .unbalanced
  | payload raw =>
    simp only [Api.place]
    split
    · exact built_reject c .invalid
    · refine (Built.withIds _).bind fun card => ?_
      cases card with
      | none => exact .pure []
      | some card => exact (Built.shelve _).bind fun held => .pure _

theorem built_placeComponents (maxDepth : Int) (t : Text) : Built (Api.placeComponents maxDepth t) :=
  (Built.foldlM (fun _ c => .mapFoundM (built_place maxDepth c) _) Api.Component.all t).bind fun _ => .withIds _

namespace Renderer

theorem built_shelveAll {α : Type} {html : α → StateM Work Html} (h : ∀ a, Built (html a)) (read : Reader Char α)
    (t : Text) : Built (shelveAll read html t) :=
  .mapFoundM (fun a => (h a).bind fun _ => .shelve _) t

theorem built_shelveGroups {html : List Element.Labelled → StateM Work Html} (h : ∀ items, Built (html items))
    (name item t : Text) : Built (shelveGroups name item html t) := by
  refine .mapFoundM (fun body => ?_) t
  split
  · exact .pure body
  · exact (h _).bind fun _ => .shelve _

/-- The passes behind those for code, in their order. -/
def passes (r : Renderer) (inner : Text → StateM Work Text) : List (Text → StateM Work Text) :=
  let described (name : Text) (html : Attributes → Text → Html) : Text → StateM Work Text :=
    shelveAll (Element.described? name) fun e => return html e.attributes (← inner e.body)
  [shelveAll Element.callout? (fun e => return Element.callout e.label (← inner e.body)),
    shelveAll (Element.titled? "Accordion") (fun e => return Element.accordion e.label (← inner e.body)),
    placeTabs inner,
    shelveGroups "Steps" "Step" (fun items => do
      return Element.steps (← items.mapM fun e => return (e.label, ← inner e.body))),
    described "CardGroup" Element.cardGroup,
    described "Card" Element.card,
    described "APIEndpoint" Element.endpoint,
    shelveAll (Element.plain? "ParameterTable") (fun body => return Element.parameterTable (← inner body)),
    Api.placeComponents r.maxDepth,
    shelveAll (Element.single? "ChildGrid") (fun as => return Element.childGrid as),
    described "BrowserMockup" Element.browserMockup]

theorem placeElements_eq (r : Renderer) (inner : Text → StateM Work Text) (t : Text) :
    r.placeElements inner t = (do
      let t ← shelveAll Code.titled? (fun b => return b.html) t
      let t ← Code.replaceFenced (fun block => Work.shelve (r.engine block)) t
      (r.passes inner).foldlM (fun t pass => pass t) t) := by
  simp only [passes, List.foldlM_cons, List.foldlM_nil, bind_pure]
  rfl

theorem built_passes (r : Renderer) {inner : Text → StateM Work Text} (h : ∀ t, Built (inner t)) :
    ∀ pass ∈ r.passes inner, ∀ t, Built (pass t) := by
  have hdescribed (name : Text) (html : Attributes → Text → Html) (t : Text) :
      Built (shelveAll (Element.described? name)
        (fun e : Element.Described => do return html e.attributes (← inner e.body)) t) :=
    built_shelveAll (fun e : Element.Described => .bind (h e.body) fun u => .pure _) _ t
  unfold passes
  simp only [List.forall_mem_cons]
  refine ⟨?_, ?_, ?_, ?_, hdescribed _ _, hdescribed _ _, hdescribed _ _, ?_, built_placeComponents r.maxDepth, ?_,
    hdescribed _ _, ?_⟩
  · exact built_shelveAll (fun e => .bind (h _) fun u => .pure _) _
  · exact built_shelveAll (fun e => .bind (h _) fun u => .pure _) _
  · refine built_shelveGroups (fun items => ?_) _ _
    refine (Built.withIds _).bind fun id => (Built.mapM (fun e => ?_) items).bind fun parts => .pure _
    exact (h _).bind fun u => .pure _
  · refine built_shelveGroups (fun items => ?_) _ _
    refine (Built.mapM (fun e => ?_) items).bind fun parts => .pure _
    exact (h _).bind fun u => .pure _
  · exact built_shelveAll (fun body => .bind (h _) fun u => .pure _) _
  · exact built_shelveAll (fun as => .pure _) _
  · simp

theorem built_placeElements (r : Renderer) {inner : Text → StateM Work Text} (h : ∀ t, Built (inner t)) (t : Text) :
    Built (r.placeElements inner t) := by
  rw [placeElements_eq]
  refine (built_shelveAll (fun b => .pure _) _ t).bind fun t => ?_
  refine (Built.replaceFenced (fun block => .shelve _) t).bind fun t => ?_
  exact built_all (built_passes r h) t

theorem built_renderWithin (r : Renderer) (depth : Nat) (t : Text) : Built (renderWithin r depth t) := by
  induction depth generalizing t with
  | zero => exact .pure (r.engine t)
  | succ depth ih =>
    rw [renderWithin]
    exact (built_placeElements r (fun t => ih (Text.strip t)) _).bind fun t => .pure _

end Renderer

end DocPages
