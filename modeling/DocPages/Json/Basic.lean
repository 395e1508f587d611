import DocPages.Number.Double
import DocPages.Keyed

/-!
# JSON values

Payloads and schemas are JSON values. The members of an object are kept in order, with distinct keys.
Whole numbers are unbounded and are kept apart from doubles, because the two are written differently; they
are compared by value.
-/

namespace DocPages

inductive Json where
  | null
  | bool (b : Bool)
  | int (n : Int)
  | double (x : Double)
  | str (s : Text)
  | arr (items : List Json)
  | obj (members : List (Text × Json))

abbrev Members := Keyed Json

namespace Json

def member? (k : Text) : Json → Option Json
  | .obj ms => Keyed.get? ms k
  | _ => none

/-- The member, with `null` for one that is missing. -/
def get (k : Text) (j : Json) : Json := (member? k j).getD .null

def members? : Json → Option Members
  | .obj ms => some ms
  | _ => none

def items? : Json → Option (List Json)
  | .arr xs => some xs
  | _ => none

def isNull : Json → Bool
  | .null => true
  | _ => false

/-- Empty values, zeros, `false` and `null` count as absent. -/
def isTruthy : Json → Bool
  | .null => false
  | .bool b => b
  | .int n => n != 0
  | .double x => !x.isZero
  | .str s => !s.isEmpty
  | .arr xs => !xs.isEmpty
  | .obj ms => !ms.isEmpty

/-- The first of two values that is not empty, and the second if both are. -/
def orElse (a b : Json) : Json := if a.isTruthy then a else b

/-- The value of a number; the truth values count as one and zero. -/
def number? : Json → Option (Int ⊕ Double)
  | .bool b => some (.inl (if b then 1 else 0))
  | .int n => some (.inl n)
  | .double x => some (.inr x)
  | _ => none

def sameNumber : Int ⊕ Double → Int ⊕ Double → Bool
  | .inl m, .inl n => m == n
  | .inl m, .inr y => y.isInt m
  | .inr x, .inl n => x.isInt n
  | .inr x, .inr y => x.same y

mutual

/-- Equality by value: numbers of any kind are compared as numbers, and objects without regard to the
order of their members. -/
def same : Json → Json → Bool
  | .null, .null => true
  | .str s, .str t => s == t
  | .arr xs, .arr ys => sameItems xs ys
  | .obj ms, .obj ns => ms.length == ns.length && sameMembers ms ns
  | a, b => match number? a, number? b with
    | some x, some y => sameNumber x y
    | _, _ => false
  termination_by structural j => j

def sameItems : List Json → List Json → Bool
  | [], [] => true
  | x :: xs, y :: ys => same x y && sameItems xs ys
  | _, _ => false
  termination_by structural xs => xs

/-- Whether each member has a counterpart with the same value. -/
def sameMembers : List (Text × Json) → List (Text × Json) → Bool
  | [], _ => true
  | (k, v) :: ms, ns => (match Keyed.get? ns k with
    | some w => same v w
    | none => false) && sameMembers ms ns
  termination_by structural ms => ms

end

/-- The items that do not equal an earlier one. -/
def distinct (xs : List Json) : List Json :=
  (xs.foldl (fun seen x => if seen.any (same x) then seen else x :: seen) []).reverse

end Json

end DocPages
