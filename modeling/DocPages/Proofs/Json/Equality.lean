import DocPages.Json.Basic

/-!
# Equality of JSON values

Values are compared item by item and member by member, so whether two of them are equal can be decided and
what is read from a fixed text can be checked by evaluation.
-/

namespace DocPages.Json

mutual

def eqb : Json → Json → Bool
  | .null, .null => true
  | .bool a, .bool b => a == b
  | .int a, .int b => a == b
  | .double a, .double b => decide (a = b)
  | .str a, .str b => a == b
  | .arr as, .arr bs => eqbItems as bs
  | .obj as, .obj bs => eqbMembers as bs
  | _, _ => false
  termination_by structural a => a

def eqbItems : List Json → List Json → Bool
  | [], [] => true
  | a :: as, b :: bs => eqb a b && eqbItems as bs
  | _, _ => false
  termination_by structural as => as

def eqbMembers : List (Text × Json) → List (Text × Json) → Bool
  | [], [] => true
  | (k, a) :: as, (l, b) :: bs => k == l && eqb a b && eqbMembers as bs
  | _, _ => false
  termination_by structural as => as

end

mutual

theorem eqb_iff : (a b : Json) → (eqb a b = true ↔ a = b)
  | .null, b => by cases b <;> simp [eqb]
  | .bool _, b => by cases b <;> simp [eqb]
  | .int _, b => by cases b <;> simp [eqb]
  | .double _, b => by cases b <;> simp [eqb]
  | .str _, b => by cases b <;> simp [eqb]
  | .arr as, b => by
    cases b with
    | arr bs => simpa [eqb] using eqbItems_iff as bs
    | _ => simp [eqb]
  | .obj as, b => by
    cases b with
    | obj bs => simpa [eqb] using eqbMembers_iff as bs
    | _ => simp [eqb]

theorem eqbItems_iff : (as bs : List Json) → (eqbItems as bs = true ↔ as = bs)
  | [], bs => by cases bs <;> simp [eqbItems]
  | a :: as, bs => by
    cases bs with
    | nil => simp [eqbItems]
    | cons b bs => simp [eqbItems, eqb_iff a b, eqbItems_iff as bs]

theorem eqbMembers_iff : (as bs : List (Text × Json)) → (eqbMembers as bs = true ↔ as = bs)
  | [], bs => by cases bs <;> simp [eqbMembers]
  | (k, a) :: as, bs => by
    cases bs with
    | nil => simp [eqbMembers]
    | cons b bs => simp [eqbMembers, Prod.ext_iff, eqb_iff a b.2, eqbMembers_iff as bs]

end

instance : DecidableEq Json := fun a b => decidable_of_iff (eqb a b = true) (eqb_iff a b)

end DocPages.Json
