import DocPages.Proofs.Page.Leftover
import DocPages.Proofs.Page.Markup
import Mathlib.Data.Finset.Card

/-!
# Nested block components

Blocks in a row, each a paragraph or a component around blocks of its own. A forest has a text, in which blocks are
separated by a blank line, and a direct rendering, which wraps the rendering of each component's content into the
component's template. The two have nothing to do with passes.
-/

namespace DocPages.Markup

mutual
/-- Blocks one after the other. -/
inductive Forest where
  | nil
  | text (p : Phrase) (rest : Forest)
  | box (b : Box) (content rest : Forest)
  | steps (items : Steps) (rest : Forest)
/-- The steps of a list, each with a title and blocks of its own. -/
inductive Steps where
  | nil
  | step (title : Phrase) (content : Forest) (rest : Steps)
end

/-- Blocks with a blank line between two of them. -/
def joinBlocks (blocks : List Text) : Text := Text.join "\n\n" blocks

def writeStep (title : Phrase) (content : Text) : Text :=
  wrap (titleLine "Step" title) (Element.endTag "Step") content

def writeSteps (steps : List Text) : Text :=
  wrap (Element.startTag "Steps" ++ ['>']) Kind.steps.endLine (joinBlocks steps)

mutual
/-- The texts of the blocks. -/
def Forest.blocks : Forest → List Text
  | .nil => []
  | .text p rest => p.text :: rest.blocks
  | .box b content rest => b.write (joinBlocks content.blocks) :: rest.blocks
  | .steps items rest => writeSteps items.blocks :: rest.blocks
/-- The texts of the steps. -/
def Steps.blocks : Steps → List Text
  | .nil => []
  | .step title content rest => writeStep title (joinBlocks content.blocks) :: rest.blocks
end

/-- The document that an author writes. -/
def Forest.write (f : Forest) : Text := joinBlocks f.blocks

/-- The list of steps as HTML, of which nothing is left if there is no step. -/
def htmlOfSteps (parts : List (Text × Text)) : Html := if parts.isEmpty then .empty else Element.steps parts

mutual
/-- The direct rendering: around what the engine makes of a component's content stands its template. -/
def Forest.html : Forest → Text
  | .nil => []
  | .text p rest => p.text ++ rest.html
  | .box b content rest => (b.html (echo content.html)).write ++ rest.html
  | .steps items rest => (htmlOfSteps items.parts).write ++ rest.html
/-- The titles of the steps, and what their contents are rendered as. -/
def Steps.parts : Steps → List (Text × Text)
  | .nil => []
  | .step title content rest => (title.text, echo content.html) :: rest.parts
end

/-- The page of a document. An empty document has an empty page. -/
def Forest.page : Forest → Text
  | .nil => []
  | f => echo f.html

mutual
/-- The kinds of components that occur. -/
def Forest.kinds : Forest → Finset Kind
  | .nil => ∅
  | .text _ rest => rest.kinds
  | .box b content rest => insert b.kind (content.kinds ∪ rest.kinds)
  | .steps items rest => insert .steps (items.kinds ∪ rest.kinds)
/-- The kinds of components that occur in the steps. -/
def Steps.kinds : Steps → Finset Kind
  | .nil => ∅
  | .step _ content rest => content.kinds ∪ rest.kinds
end

mutual
/-- No component stands inside another of its kind. -/
def Forest.Unnested : Forest → Prop
  | .nil => True
  | .text _ rest => rest.Unnested
  | .box b content rest => b.kind ∉ content.kinds ∧ content.Unnested ∧ rest.Unnested
  | .steps items rest => .steps ∉ items.kinds ∧ items.Unnested ∧ rest.Unnested
/-- No component in the steps stands inside another of its kind. -/
def Steps.Unnested : Steps → Prop
  | .nil => True
  | .step _ content rest => content.Unnested ∧ rest.Unnested
end

mutual
def Forest.decidableUnnested : (f : Forest) → Decidable f.Unnested
  | .nil => .isTrue trivial
  | .text _ rest => rest.decidableUnnested
  | .box b content rest =>
    have := content.decidableUnnested
    have := rest.decidableUnnested
    inferInstanceAs (Decidable (b.kind ∉ content.kinds ∧ content.Unnested ∧ rest.Unnested))
  | .steps items rest =>
    have := items.decidableUnnested
    have := rest.decidableUnnested
    inferInstanceAs (Decidable (.steps ∉ items.kinds ∧ items.Unnested ∧ rest.Unnested))
def Steps.decidableUnnested : (items : Steps) → Decidable items.Unnested
  | .nil => .isTrue trivial
  | .step _ content rest =>
    have := content.decidableUnnested
    have := rest.decidableUnnested
    inferInstanceAs (Decidable (content.Unnested ∧ rest.Unnested))
end

instance : DecidablePred Forest.Unnested := Forest.decidableUnnested

/-- Between two blocks stands a blank line. -/
def separator (rest : List Text) : Text := if rest.isEmpty then [] else ['\n', '\n']

theorem eq_of_mem_separator {rest : List Text} {c : Char} (h : c ∈ separator rest) : c = '\n' := by
  unfold separator at h
  split at h
  · exact absurd h List.not_mem_nil
  · simpa using h

theorem joinBlocks_cons (t : Text) (rest : List Text) :
    joinBlocks (t :: rest) = t ++ (separator rest ++ joinBlocks rest) := by
  cases rest with
  | nil => simp [joinBlocks, separator, Text.join]
  | cons u rest => simp [joinBlocks, separator, Text.join]

mutual
/-- A text is at least as long as it has kinds of components. -/
theorem Forest.card_kinds_le : ∀ f : Forest, f.kinds.card ≤ (joinBlocks f.blocks).length
  | .nil => by simp [Forest.kinds]
  | .text p rest => by
    have hrest := rest.card_kinds_le
    simp only [Forest.kinds, Forest.blocks, joinBlocks_cons, List.length_append]
    omega
  | .box b content rest => by
    have hcontent := content.card_kinds_le
    have hrest := rest.card_kinds_le
    have hinsert := Finset.card_insert_le b.kind (content.kinds ∪ rest.kinds)
    have hunion := Finset.card_union_le content.kinds rest.kinds
    simp only [Forest.kinds, Forest.blocks, joinBlocks_cons, Box.write, wrap, List.length_append, List.length_cons]
    omega
  | .steps items rest => by
    have hitems := items.card_kinds_le
    have hrest := rest.card_kinds_le
    have hinsert := Finset.card_insert_le Kind.steps (items.kinds ∪ rest.kinds)
    have hunion := Finset.card_union_le items.kinds rest.kinds
    simp only [Forest.kinds, Forest.blocks, joinBlocks_cons, writeSteps, wrap, List.length_append, List.length_cons]
    omega
theorem Steps.card_kinds_le : ∀ items : Steps, items.kinds.card ≤ (joinBlocks items.blocks).length
  | .nil => by simp [Steps.kinds]
  | .step title content rest => by
    have hcontent := content.card_kinds_le
    have hrest := rest.card_kinds_le
    have hunion := Finset.card_union_le content.kinds rest.kinds
    simp only [Steps.kinds, Steps.blocks, joinBlocks_cons, writeStep, wrap, List.length_append, List.length_cons]
    omega
end

end DocPages.Markup
