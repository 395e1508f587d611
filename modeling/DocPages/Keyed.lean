import DocPages.Text.Basic

/-!
# Keyed lists

Values by name in the order in which the names first appear: front matter, attributes of tags and the
members of objects. Writing to a name that is there keeps its place.
-/

namespace DocPages

abbrev Keyed (α : Type) := List (Text × α)

namespace Keyed

variable {α : Type}

def get? (es : Keyed α) (k : Text) : Option α := es.lookup k

def put (k : Text) (v : α) : Keyed α → Keyed α
  | [] => [(k, v)]
  | (k', v') :: es => if k' = k then (k, v) :: es else (k', v') :: put k v es

/-- Writes all entries of `new` in order. -/
def update (es new : Keyed α) : Keyed α := new.foldl (fun acc e => put e.1 e.2 acc) es

/-- The entries with the last value of each name at the place of its first. -/
def ofList (es : List (Text × α)) : Keyed α := update [] es

def without (keys : List Text) (es : Keyed α) : Keyed α := es.filter fun e => !keys.contains e.1

def has (es : Keyed α) (k : Text) : Bool := (es.get? k).isSome

/-- Inserts an entry in front of the first whose name is not smaller. -/
def insertByName (e : Text × α) : Keyed α → Keyed α
  | [] => [e]
  | e' :: es => if Text.before e'.1 e.1 then e' :: insertByName e es else e :: e' :: es

/-- The entries in the order of their names. -/
def sorted (es : Keyed α) : Keyed α := es.foldr insertByName []

@[simp] theorem get?_put_self (k : Text) (v : α) (es : Keyed α) :
    (put k v es).get? k = some v := by
  unfold get?
  induction es with
  | nil => simp [put]
  | cons e es ih =>
    obtain ⟨k', v'⟩ := e
    by_cases h : k' = k
    · simp [put, h]
    · simp [put, h, List.lookup_cons, ih, show (k == k') = false by simp [Ne.symm h]]

theorem get?_put_of_ne {k j : Text} (v : α) (es : Keyed α) (h : j ≠ k) :
    (put k v es).get? j = es.get? j := by
  unfold get?
  induction es with
  | nil => simp [put, List.lookup_cons, show (j == k) = false by simp [h]]
  | cons e es ih =>
    obtain ⟨k', v'⟩ := e
    by_cases hk : k' = k
    · simp [put, hk, List.lookup_cons, show (j == k) = false by simp [h]]
    · simp [put, hk, List.lookup_cons, ih]

end Keyed

end DocPages
