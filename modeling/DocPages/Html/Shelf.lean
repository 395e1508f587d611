import DocPages.Text.Pieces

/-!
# The shelf

Finished HTML waits on a shelf while the rest of the page goes through the Markdown engine; a token holds
its place in the text. Tokens consist of letters and digits, so the engine passes them on as words, and a
token that stands alone comes back as a paragraph. Fragments are put back newest first: a fragment that holds
tokens of earlier ones is in place before those are looked for.
-/

namespace DocPages

/-- The fragments in the order in which they were stored. -/
structure Shelf where
  blocks : List Text

namespace Shelf

def empty : Shelf := ⟨[]⟩

def size (s : Shelf) : Nat := s.blocks.length

def token (n : Nat) : Text := "DOCFORGESTASH" ++ Text.ofNat n ++ "END"

/-- A token as a block of its own. -/
def place (n : Nat) : Text := "\n\n" ++ token n ++ "\n\n"

/-- Stores a fragment and gives the text that holds its place. -/
def store (block : Text) : StateM Shelf Text := fun s => (place s.size, ⟨s.blocks ++ [block]⟩)

/-- Puts the block with the given number back, with or without a paragraph around its token. -/
def putBack (n : Nat) (block t : Text) : Text :=
  Text.replace (token n) block (Text.replace ("<p>" ++ token n ++ "</p>") block t)

def restore (s : Shelf) (t : Text) : Text :=
  s.blocks.zipIdx.foldr (fun (block, n) t => putBack n block t) t

/-- The tokens of stored blocks that occur in the text. -/
def leftovers (s : Shelf) (t : Text) : List Text :=
  (List.range s.size).map token |>.filter t.includes

@[simp] theorem size_store (block : Text) (s : Shelf) : (store block s).2.size = s.size + 1 := by
  simp [store, size]

@[simp] theorem restore_empty (t : Text) : restore empty t = t := rfl

/-- The newest block is put back first. -/
theorem restore_append (blocks : List Text) (block t : Text) :
    restore ⟨blocks ++ [block]⟩ t = restore ⟨blocks⟩ (putBack blocks.length block t) := by
  simp [restore, List.zipIdx_append]

end Shelf

end DocPages
