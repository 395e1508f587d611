import DocPages.Api.Component
import DocPages.Html.Shelf

/-!
# Work on a page

What builds up while a page is rendered: the ids drawn so far, the shelf of finished fragments and the
issues to report.
-/

namespace DocPages

namespace Api

/-- Why the payload of a component could not be used. -/
inductive Fault where
  | unbalanced | invalid
  deriving DecidableEq

def Fault.reason : Fault → Text
  | unbalanced => "unbalanced braces"
  | invalid => "invalid JSON"

end Api

inductive Issue where
  | payload (c : Api.Component) (f : Api.Fault)
  | leftover (token : Text)
  deriving DecidableEq

def Issue.message : Issue → Text
  | payload c f => "Could not parse " ++ c.label ++ ": " ++ f.reason ++ " in <" ++ c.tag ++ ">"
  | leftover token => "Unrestored placeholder: " ++ token

structure Work where
  ids : IdSupply
  shelf : Shelf
  issues : List Issue

namespace Work

def fresh : Work := ⟨IdSupply.fresh, Shelf.empty, []⟩

/-- Runs a step that draws ids only. -/
def withIds {α : Type} (step : StateM IdSupply α) : StateM Work α := fun w =>
  let (a, ids) := step w.ids
  (a, { w with ids })

/-- Puts a fragment on the shelf and gives the text that holds its place. -/
def shelve (block : Text) : StateM Work Text := fun w =>
  let (place, shelf) := Shelf.store block w.shelf
  (place, { w with shelf })

def report (issue : Issue) : StateM Work Unit := fun w => ((), { w with issues := w.issues ++ [issue] })

end Work

end DocPages
