import DocPages.Text.Basic

/-!
# Pieces

Most passes over a document look for one construct and leave all else as it stands. `pieces` runs a
reader at each place from left to right: a construct is taken as soon as the reader accepts it, and the
search goes on behind it, so constructs never overlap. The reader works on lists of anything, hence on
the characters of a text and on the lines of a page alike.
-/

namespace DocPages

/-- What a search meets: an entry that belongs to no construct, or a construct. -/
inductive Piece (β α : Type) where
  | kept (b : β)
  | found (a : α)

/-- A reader takes a construct off the front of a list and hands back the rest. -/
abbrev Reader (β α : Type) := List β → Option (α × List β)

/-- The pieces of a list of which the first `skip` entries are already accounted for. -/
def piecesFrom {β α : Type} (read : Reader β α) : (skip : Nat) → List β → List (Piece β α)
  | _, [] => []
  | skip + 1, _ :: t => piecesFrom read skip t
  | 0, b :: t => match read (b :: t) with
    | some (a, rest) => .found a :: piecesFrom read (t.length - rest.length) t
    | none => .kept b :: piecesFrom read 0 t

def pieces {β α : Type} (read : Reader β α) (t : List β) : List (Piece β α) := piecesFrom read 0 t

/-- A list in which the reader accepts no place consists of its entries. -/
theorem pieces_eq_kept {β α : Type} (read : Reader β α) (t : List β)
    (h : ∀ s, s <:+ t → read s = none) : pieces read t = t.map .kept := by
  unfold pieces
  induction t with
  | nil => rfl
  | cons b t ih =>
    rw [piecesFrom, h _ (List.suffix_refl _)]
    simp [ih fun s hs => h s (hs.trans (List.suffix_cons b t))]

/-- What the reader has found, in order. -/
def found {β α : Type} (read : Reader β α) (t : List β) : List α :=
  (pieces read t).filterMap fun
    | .kept _ => none
    | .found a => some a

namespace Text

/-- The text with every construct replaced by what `write` makes of it. -/
def mapFound {α : Type} (read : Reader Char α) (write : α → Text) (t : Text) : Text :=
  (pieces read t).flatMap fun
    | .kept c => [c]
    | .found a => write a

/-- The text with every construct replaced from left to right by a stateful writer. -/
def mapFoundM {α : Type} {m : Type → Type} [Monad m] (read : Reader Char α) (write : α → m Text)
    (t : Text) : m Text := go (pieces read t)
where
  go : List (Piece Char α) → m Text
    | [] => pure []
    | .kept c :: ps => return c :: (← go ps)
    | .found a :: ps => return (← write a) ++ (← go ps)

theorem mapFound_eq_self {α : Type} (read : Reader Char α) (write : α → Text) (t : Text)
    (h : ∀ s, s <:+ t → read s = none) : mapFound read write t = t := by
  rw [mapFound, pieces_eq_kept read t h]
  induction t with
  | nil => rfl
  | cons c t ih => simpa using ih fun s hs => h s (hs.trans (List.suffix_cons c t))

/-- The text with every occurrence of `old` replaced, from left to right. -/
def replace (old new : Text) (t : Text) : Text :=
  mapFound (fun s => (after? old s).map fun rest => ((), rest)) (fun _ => new) t

end Text

end DocPages
