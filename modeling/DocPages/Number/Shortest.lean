import DocPages.Number.Double
import DocPages.Text.Basic

/-!
# Shortest decimals

The written form of a double has the fewest digits that read back as the same double, and of those the
ones nearest to its value. For each number of digits only the two neighbours of the value on that decimal
grid have to be tried: if a point of the grid reads back, so does one of them.
-/

namespace DocPages

/-- A positive decimal `digits · 10 ^ exponent`. -/
structure Decimal where
  digits : Nat
  exponent : Int

/-- A half-open or closed interval of positive rationals over one denominator, with the value inside
it that is to be approximated. -/
structure Rounding where
  low : Nat
  value : Nat
  high : Nat
  den : Nat
  closed : Bool

namespace Rounding

/-- The reals that round to `m · 2 ^ e`; both ends belong to it when `m` is even. Below a power of two
the gap is half as wide. -/
def ofDouble (m : Nat) (e : Int) : Rounding :=
  let unit := powTwo (e - 2).toNat
  let gap := if m = powTwo 52 ∧ -1074 < e then 1 else 2
  ⟨(4 * m - gap) * unit, 4 * m * unit, (4 * m + 2) * unit, powTwo (2 - e).toNat, m % 2 == 0⟩

/-- The number of digits before the point, or minus the number of zeros behind it. -/
def magnitude (r : Rounding) : Int :=
  if r.den ≤ r.value then (Nat.toDigits 10 (r.value / r.den)).length
  else 1 - (Nat.toDigits 10 ((r.den + r.value - 1) / r.value - 1)).length

/-- Whether `n / d` reads back, given that it is on the right side of the value. -/
def holds (r : Rounding) (n d : Nat) : Bool :=
  let x := n * r.den
  if r.closed then r.low * d ≤ x && x ≤ r.high * d else r.low * d < x && x < r.high * d

/-- The neighbour of the value on the grid of `10 ^ p` that reads back and is nearest. -/
def onGrid? (r : Rounding) (p : Int) : Option Decimal :=
  let up := powTen p.toNat
  let down := powTen (-p).toNat
  let num := r.value * down
  let den := r.den * up
  let q := num / den
  let below := r.holds (q * up) down
  let above := r.holds ((q + 1) * up) down
  if below && above then some ⟨roundDiv num den, p⟩
  else if below then some ⟨q, p⟩
  else if above then some ⟨q + 1, p⟩
  else none

end Rounding

namespace Decimal

/-- Without zeros at the end; the fuel is the number of digits. -/
def trimZeros : Nat → Decimal → Decimal
  | fuel + 1, d => if d.digits % 10 = 0 then trimZeros fuel ⟨d.digits / 10, d.exponent + 1⟩ else d
  | 0, d => d

def shortest (m : Nat) (e : Int) : Decimal :=
  let r := Rounding.ofDouble m e
  match (List.range 17).findSome? fun n => r.onGrid? (r.magnitude - (n + 1 : Nat)) with
  | some d => trimZeros 18 d
  | none => ⟨m, e⟩

/-- Positional from `0.0001` up to sixteen digits before the point, and always with a point; otherwise
one digit before the point and an exponent of at least two digits. -/
def text (d : Decimal) : Text :=
  let ds := Text.ofNat d.digits
  let point : Int := ds.length + d.exponent
  let zeros (n : Int) : Text := List.replicate n.toNat '0'
  if -4 < point ∧ point ≤ 16 then
    if point ≤ 0 then "0." ++ zeros (-point) ++ ds
    else if ds.length ≤ point then ds ++ zeros (point - ds.length) ++ ".0"
    else ds.take point.toNat ++ "." ++ ds.drop point.toNat
  else
    let exponent := Text.ofNat (point - 1).natAbs
    ds.take 1 ++ (if ds.length = 1 then [] else '.' :: ds.drop 1) ++ "e"
      ++ (if point < 1 then "-" else "+") ++ zeros (2 - exponent.length) ++ exponent

end Decimal

/-- The written form of a finite double and the given words for the others. -/
def Double.text (nan infinity : Text) : Double → Text
  | .nan => nan
  | .infinite neg => if neg then '-' :: infinity else infinity
  | .finite neg m e =>
    let unsigned : Text := if m = 0 then "0.0" else (Decimal.shortest m e).text
    if neg then '-' :: unsigned else unsigned

end DocPages
