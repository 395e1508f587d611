/-!
# Doubles

Double-precision numbers in exact arithmetic: a finite one is a sign, a magnitude and a power of two. A
decimal is read by rounding its exact value to the nearest double, and a half goes to the even neighbour.
-/

namespace DocPages

/-- `finite neg m e` stands for `± m · 2 ^ e`. The magnitude is below `2 ^ 53`, and at least `2 ^ 52`
unless the exponent is the least one, `-1074`. -/
inductive Double where
  | nan
  | infinite (neg : Bool)
  | finite (neg : Bool) (m : Nat) (e : Int)
  deriving DecidableEq

/-- A power of two. -/
def powTwo (n : Nat) : Nat := Nat.pow 2 n

/-- A power of ten. -/
def powTen (n : Nat) : Nat := Nat.pow 10 n

@[simp] theorem powTwo_succ (n : Nat) : powTwo (n + 1) = powTwo n * 2 := rfl

@[simp] theorem powTen_succ (n : Nat) : powTen (n + 1) = powTen n * 10 := rfl

/-- The quotient rounded to the nearest number, a half to the even neighbour. -/
def roundDiv (num den : Nat) : Nat :=
  let q := num / den
  let r := num % den
  if 2 * r < den then q else if den < 2 * r then q + 1 else q + q % 2

theorem roundDiv_mul (q den : Nat) (h : 0 < den) : roundDiv (q * den) den = q := by
  simp [roundDiv, Nat.mul_div_cancel q h, h]

namespace Double

def zero (neg : Bool) : Double := .finite neg 0 (-1074)

/-- Numerator and denominator of `num / den / 2 ^ e`. -/
def scale (num den : Nat) (e : Int) : Nat × Nat := (num * powTwo (-e).toNat, den * powTwo e.toNat)

/-- The double nearest to `± num / den`. -/
def ofRatio (neg : Bool) (num den : Nat) : Double :=
  if num = 0 then zero neg
  else
    let guess : Int := (num.log2 : Int) - den.log2 - 52
    let (n, d) := scale num den guess
    let e := max (if n / d < powTwo 52 then guess - 1 else guess) (-1074)
    let (n, d) := scale num den e
    let m := roundDiv n d
    let (m, e) := if m = powTwo 53 then (powTwo 52, e + 1) else (m, e)
    if 971 < e then .infinite neg else .finite neg m e

/-- The double nearest to `± digits · 10 ^ exponent`. An exponent out of all proportion is settled by
the number of digits before the point alone. -/
def ofDecimal (neg : Bool) (digits : Nat) (exponent : Int) : Double :=
  let size := (Nat.toDigits 10 digits).length + exponent
  if digits = 0 ∨ size < -330 then zero neg
  else if 310 < size then .infinite neg
  else ofRatio neg (digits * powTen exponent.toNat) (powTen (-exponent).toNat)

def isZero : Double → Bool
  | .finite _ m _ => m == 0
  | _ => false

/-- Equality of values: the zeros are equal whatever their sign, and what is not a number equals itself. -/
def same (x y : Double) : Bool := x == y || (x.isZero && y.isZero)

/-- Whether the double is exactly the whole number `n`. -/
def isInt (x : Double) (n : Int) : Bool :=
  match x with
  | .finite neg m e =>
    let v := if neg then -(m : Int) else m
    v * powTwo e.toNat == n * powTwo (-e).toNat
  | _ => false

end Double

end DocPages
