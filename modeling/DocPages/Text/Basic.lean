/-!
# Texts

A text is the list of its characters, so a reader is a function on lists that hands back what it has
not read. This module holds the operations that need no knowledge of the characters: what follows a
given lead, cutting around the first occurrence of a separator, splitting and joining, and trimming by a
predicate.
-/

namespace DocPages

abbrev Text := List Char

instance : Coe String Text := ⟨String.toList⟩

/-- The stretches of a list between the entries that satisfy `p`; there is always one more than those. -/
def splitWhere {α : Type} (p : α → Bool) : List α → List (List α)
  | [] => [[]]
  | a :: as =>
    if p a then [] :: splitWhere p as
    else match splitWhere p as with
      | [] => [[a]]
      | part :: parts => (a :: part) :: parts

theorem splitWhere_ne_nil {α : Type} (p : α → Bool) (as : List α) : splitWhere p as ≠ [] := by
  cases as with
  | nil => simp [splitWhere]
  | cons a as =>
    simp only [splitWhere]
    split
    · simp
    · split <;> simp

namespace Text

/-- What follows `lead` in a text that starts with it. -/
def after? : (lead t : Text) → Option Text
  | [], t => some t
  | _ :: _, [] => none
  | a :: lead, c :: t => if a = c then after? lead t else none

@[simp] theorem after?_nil (t : Text) : after? [] t = some t := by cases t <;> rfl

theorem after?_append (lead t : Text) : after? lead (lead ++ t) = some t := by
  induction lead with
  | nil => simp
  | cons a lead ih => simpa [after?] using ih

theorem eq_append_of_after? {lead t rest : Text} (h : after? lead t = some rest) :
    t = lead ++ rest := by
  induction lead generalizing t with
  | nil => simp_all
  | cons a lead ih =>
    cases t with
    | nil => simp [after?] at h
    | cons c t =>
      by_cases hac : a = c
      · simp [after?, hac] at h; simp [hac, ih h]
      · simp [after?, hac] at h

/-- Whether the text starts with `lead`. -/
def startsWith (t lead : Text) : Bool := (after? lead t).isSome

/-- The text around the first occurrence of `sep`. -/
def cut? (sep : Text) : Text → Option (Text × Text)
  | [] => if sep.isEmpty then some ([], []) else none
  | c :: t => match after? sep (c :: t) with
    | some rest => some ([], rest)
    | none => (cut? sep t).map fun (before, rest) => (c :: before, rest)

theorem eq_of_cut? {sep t before rest : Text} (h : cut? sep t = some (before, rest)) :
    t = before ++ sep ++ rest := by
  induction t generalizing before with
  | nil =>
    cases sep with
    | nil => simp [cut?] at h; simp [h]
    | cons a sep => simp [cut?] at h
  | cons c t ih =>
    simp only [cut?] at h
    split at h
    · next hs => simp at h; obtain ⟨rfl, rfl⟩ := h; simpa using eq_append_of_after? hs
    · obtain ⟨⟨b, r⟩, hb, he⟩ := Option.map_eq_some_iff.1 h
      obtain ⟨rfl, rfl⟩ := he
      simp [ih hb]

/-- Whether `part` occurs in the text. -/
def includes (t part : Text) : Bool := (cut? part t).isSome

/-- The stretches of a text between its separators; there is always one more than separators. -/
def splitAt (sep : Char) (t : Text) : List Text := splitWhere (· == sep) t

def lines (t : Text) : List Text := splitAt '\n' t

/-- The texts one after the other with `sep` between two of them. -/
def join (sep : Text) : List Text → Text
  | [] => []
  | [t] => t
  | t :: ts => t ++ sep ++ join sep ts

theorem join_splitAt (sep : Char) (t : Text) : join [sep] (splitAt sep t) = t := by
  unfold splitAt
  induction t with
  | nil => rfl
  | cons c t ih =>
    simp only [splitWhere]
    cases hs : splitWhere (· == sep) t with
    | nil => exact absurd hs (splitWhere_ne_nil _ t)
    | cons part parts =>
      rw [hs] at ih
      by_cases hc : c = sep
      · simp [hc, join, ih]
      · cases parts <;> simp_all [join]

def trimStart (p : Char → Bool) (t : Text) : Text := t.dropWhile p

def trimEnd (p : Char → Bool) (t : Text) : Text := (t.reverse.dropWhile p).reverse

def trim (p : Char → Bool) (t : Text) : Text := trimEnd p (trimStart p t)

/-- The text, or another one if it is empty. -/
def orDefault (t default : Text) : Text := if t.isEmpty then default else t

/-- The decimal digits of a number. -/
def ofNat (n : Nat) : Text := Nat.toDigits 10 n

def ofInt : Int → Text
  | .ofNat n => ofNat n
  | .negSucc n => '-' :: ofNat (n + 1)

/-- The text with line breaks of all styles as one character. -/
def unifyBreaks : Text → Text
  | '\r' :: '\n' :: t => '\n' :: unifyBreaks t
  | '\r' :: t => '\n' :: unifyBreaks t
  | c :: t => c :: unifyBreaks t
  | [] => []

/-- The lexicographic order by code point. -/
def before : Text → Text → Bool
  | _, [] => false
  | [], _ :: _ => true
  | a :: s, b :: t => a.val < b.val || (a.val == b.val && before s t)

end Text

end DocPages
