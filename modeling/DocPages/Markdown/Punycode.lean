import DocPages.Text.Class

/-!
# Punycode

The form in which the labels of a host name beyond ASCII are written with letters and digits: the plain
characters first, then for each other character, in ascending order, how far it is from the one before. The
distances are numbers of variable base whose thresholds adapt to the size of the last ones.
-/

namespace DocPages.Markdown.Punycode

def digitChar (d : Nat) : Char := Char.ofNat (if d < 26 then 0x61 + d else 0x30 + d - 26)

def digitValue? (c : Char) : Option Nat :=
  let c := c.toLower
  if 'a' ≤ c ∧ c ≤ 'z' then some (c.toNat - 0x61)
  else if c.isDigit then some (c.toNat - 0x30 + 26)
  else none

/-- The threshold of the digit at place `k`, which is a multiple of 36. -/
def threshold (k bias : Nat) : Nat := if k ≤ bias then 1 else if bias + 26 ≤ k then 26 else k - bias

/-- Scales a distance down; the fuel is more than any distance between code points needs. -/
def scaleDown : (fuel : Nat) → (k delta : Nat) → Nat × Nat
  | 0, k, delta => (k, delta)
  | fuel + 1, k, delta => if delta ≤ 455 then (k, delta) else scaleDown fuel (k + 36) (delta / 35)

def adapt (delta points : Nat) (first : Bool) : Nat :=
  let delta := if first then delta / 700 else delta / 2
  let (k, delta) := scaleDown 64 0 (delta + delta / points)
  k + 36 * delta / (delta + 38)

def encodeDigits : (fuel : Nat) → (k bias q : Nat) → Text
  | 0, _, _, _ => []
  | fuel + 1, k, bias, q =>
    let t := threshold k bias
    if q < t then [digitChar q]
    else digitChar (t + (q - t) % (36 - t)) :: encodeDigits fuel (k + 36) bias ((q - t) / (36 - t))

structure Encoder where
  out : Text
  delta : Nat
  bias : Nat
  done : Nat

/-- One character of the label while the characters with number `n` are inserted. -/
def encodeChar (plain n : Nat) (s : Encoder) (c : Char) : Encoder :=
  if c.toNat < n then { s with delta := s.delta + 1 }
  else if c.toNat = n then
    { out := s.out ++ encodeDigits 64 36 s.bias s.delta
      delta := 0
      bias := adapt s.delta (s.done + 1) (s.done = plain)
      done := s.done + 1 }
  else s

/-- Inserts the characters numbered `ns`, which ascend, where those below `low` are in place. -/
def encodeFrom (label : Text) (plain : Nat) : (low : Nat) → (ns : List Nat) → Encoder → Encoder
  | _, [], s => s
  | low, n :: ns, s =>
    let s := { s with delta := s.delta + (n - low) * (s.done + 1) }
    let s := label.foldl (encodeChar plain n) s
    encodeFrom label plain (n + 1) ns { s with delta := s.delta + 1 }

/-- Inserts a number into an ascending list that does not hold it yet. -/
def insertNumber (n : Nat) : List Nat → List Nat
  | [] => [n]
  | m :: ms => if n < m then n :: m :: ms else if n = m then m :: ms else m :: insertNumber n ms

def encode (label : Text) : Text :=
  let plain := label.filter fun c => c.toNat < 0x80
  let others := (label.filter fun c => 0x80 ≤ c.toNat).foldr (fun c ns => insertNumber c.toNat ns) []
  let start : Text := if plain.isEmpty then [] else plain ++ ['-']
  start ++ (encodeFrom label plain.length 0x80 others ⟨[], 0, 72, plain.length⟩).out

/-- A distance at the front of a text, where `i` is what has been read of it. -/
def decodeDigits (bias : Nat) : (k weight i : Nat) → Text → Option (Nat × Text)
  | _, _, _, [] => none
  | k, weight, i, c :: t => do
    let d ← digitValue? c
    let i := i + d * weight
    let limit := threshold k bias
    if d < limit then some (i, t) else decodeDigits bias (k + 36) (weight * (36 - limit)) i t

/-- Inserts characters as long as there are distances; the fuel is the length of the text. -/
def decodeFrom : (fuel n i bias : Nat) → (first : Bool) → (out t : Text) → Option Text
  | 0, _, _, _, _, out, _ => some out
  | fuel + 1, n, i, bias, first, out, t =>
    if t.isEmpty then some out
    else do
      let (distance, t) ← decodeDigits bias 36 1 0 t
      let size := out.length + 1
      let n := n + (i + distance) / size
      let i := (i + distance) % size
      if 0x10ffff < n then none
      decodeFrom fuel n (i + 1) (adapt distance size first) false
        (out.take i ++ Char.ofNat n :: out.drop i) t

/-- The label behind its mark: the plain characters up to the last hyphen and the distances. -/
def decode? (t : Text) : Option Text :=
  if t.any fun c => 0x80 ≤ c.toNat then none
  else
    let (distances, plain) := t.reverse.span (· != '-')
    decodeFrom t.length 0x80 0 72 true (plain.drop 1).reverse distances.reverse

/-- The end of a label of a host name. -/
def isSeparator (c : Char) : Bool :=
  c == '.' || c.toNat == 0x3002 || c.toNat == 0xff0e || c.toNat == 0xff61

/-- Converts the labels of a host name, and separates them by points. -/
def mapLabels (f : Text → Option Text) (host : Text) : Option Text :=
  ((splitWhere isSeparator host).mapM f).map (Text.join ".")

def hostToAscii (host : Text) : Text :=
  (mapLabels (fun label =>
    some (if label.any fun c => 0x7e < c.toNat then "xn--" ++ encode label else label)) host).getD host

/-- The host name with its encoded labels decoded; all stays as it is if one of them cannot be. -/
def hostToText (host : Text) : Text :=
  (mapLabels (fun label => match Text.after? "xn--" label with
    | some t => decode? (Text.lower t)
    | none => some label) host).getD host

end DocPages.Markdown.Punycode
