import DocPages.Keyed

/-!
# Element ids

Ids are drawn from one supply per page: the kind of the element, a hyphen and a running number of its
own for each kind.
-/

namespace DocPages

/-- How many ids of each kind have been drawn. -/
structure IdSupply where
  counts : Keyed Nat

namespace IdSupply

def fresh : IdSupply := ⟨[]⟩

def count (s : IdSupply) (kind : Text) : Nat := (s.counts.get? kind).getD 0

def id (kind : Text) (n : Nat) : Text := kind ++ '-' :: Text.ofNat n

/-- Draws the next id of a kind. -/
def draw (kind : Text) : StateM IdSupply Text := fun s =>
  let n := s.count kind + 1
  (id kind n, ⟨s.counts.put kind n⟩)

@[simp] theorem count_fresh (kind : Text) : fresh.count kind = 0 := rfl

@[simp] theorem draw_fst (kind : Text) (s : IdSupply) :
    (draw kind s).1 = id kind (s.count kind + 1) := rfl

@[simp] theorem count_draw_self (kind : Text) (s : IdSupply) :
    (draw kind s).2.count kind = s.count kind + 1 := by
  simp [draw, count]

end IdSupply

end DocPages
