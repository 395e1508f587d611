import DocPages.Json.Basic

/-!
# Reading JSON

A reader takes one value off the front of a text and hands back the rest. It is strict: only the four JSON
blanks separate tokens, control characters do not occur in strings, and numbers have no leading zero. Beyond the
standard it knows `NaN` and the two infinities. Each level of nesting uses up one unit of fuel, of which
`parse?` provides as much as the text is long.
-/

namespace DocPages.Json

def isSpace (c : Char) : Bool := c == ' ' || c == '\t' || c == '\n' || c == '\r'

def dropSpace (t : Text) : Text := t.dropWhile isSpace

def hexValue? (c : Char) : Option Nat :=
  if '0' ≤ c ∧ c ≤ '9' then some (c.toNat - 0x30)
  else if 'a' ≤ c ∧ c ≤ 'f' then some (c.toNat - 0x61 + 10)
  else if 'A' ≤ c ∧ c ≤ 'F' then some (c.toNat - 0x41 + 10)
  else none

def unit? (a b c d : Char) : Option Nat := do
  return 4096 * (← hexValue? a) + 256 * (← hexValue? b) + 16 * (← hexValue? c) + (← hexValue? d)

def escape? : Char → Option Char
  | '"' => some '"'
  | '\\' => some '\\'
  | '/' => some '/'
  | 'b' => some '\x08'
  | 'f' => some '\x0c'
  | 'n' => some '\n'
  | 'r' => some '\r'
  | 't' => some '\t'
  | _ => none

/-- The code point of a pair of surrogates. -/
def joinUnits (hi lo : Nat) : Char := Char.ofNat (0x10000 + (hi - 0xd800) * 0x400 + (lo - 0xdc00))

/-- The rest of a string behind its opening quote, and what follows the closing one. -/
def readString : Text → Option (Text × Text)
  | '"' :: t => some ([], t)
  | '\\' :: 'u' :: a :: b :: c :: d :: '\\' :: 'u' :: a' :: b' :: c' :: d' :: t => do
    let hi ← unit? a b c d
    let lo ← if 0xd800 ≤ hi ∧ hi < 0xdc00 then unit? a' b' c' d' else some 0
    if 0xdc00 ≤ lo ∧ lo < 0xe000 then
      let (s, rest) ← readString t
      return (joinUnits hi lo :: s, rest)
    else
      let (s, rest) ← readString ('\\' :: 'u' :: a' :: b' :: c' :: d' :: t)
      return (Char.ofNat hi :: s, rest)
  | '\\' :: 'u' :: a :: b :: c :: d :: t => do
    let hi ← unit? a b c d
    let (s, rest) ← readString t
    return (Char.ofNat hi :: s, rest)
  | '\\' :: e :: t => do
    let c ← escape? e
    let (s, rest) ← readString t
    return (c :: s, rest)
  | c :: t =>
    if c.toNat < 0x20 ∨ c = '\\' then none
    else (readString t).map fun (s, rest) => (c :: s, rest)
  | [] => none
  termination_by structural t => t

def digitsValue (ds : Text) : Nat := ds.foldl (fun n c => 10 * n + (c.toNat - 0x30)) 0

/-- The digits at the front of a text. -/
def digits (t : Text) : Text × Text := (t.takeWhile Char.isDigit, t.dropWhile Char.isDigit)

/-- A fraction behind the whole part: a point and at least one digit. -/
def fraction : Text → Text × Text
  | '.' :: t => match digits t with
    | ([], _) => ([], '.' :: t)
    | (ds, rest) => (ds, rest)
  | t => ([], t)

/-- An exponent, if the mark is followed by at least one digit. -/
def exponent? (t : Text) : Option (Int × Text) :=
  let unsigned (t : Text) : Option (Int × Text) := match digits t with
    | ([], _) => none
    | (ds, rest) => some ((digitsValue ds : Int), rest)
  match t with
  | e :: t =>
    if e = 'e' ∨ e = 'E' then
      match t with
      | '-' :: t => (unsigned t).map fun (n, rest) => (-n, rest)
      | '+' :: t => unsigned t
      | t => unsigned t
    else none
  | [] => none

/-- A number without its sign. A fraction or an exponent makes it a double. -/
def readUnsigned (neg : Bool) (t : Text) : Option (Json × Text) :=
  let whole : Option (Text × Text) := match t with
    | '0' :: t => some (['0'], t)
    | t => match digits t with
      | ([], _) => none
      | (ds, rest) => some (ds, rest)
  whole.map fun (ds, rest) =>
    let (fs, rest) := fraction rest
    match exponent? rest with
    | some (e, rest) =>
      (.double (.ofDecimal neg (digitsValue (ds ++ fs)) (e - fs.length)), rest)
    | none =>
      if fs.isEmpty then
        let n : Int := digitsValue ds
        (.int (if neg then -n else n), rest)
      else (.double (.ofDecimal neg (digitsValue (ds ++ fs)) (-fs.length)), rest)

/-- A value that starts with neither a quote nor a bracket. -/
def readAtom (t : Text) : Option (Json × Text) :=
  let word (w : Text) (j : Json) : Option (Json × Text) :=
    (Text.after? w t).map fun rest => (j, rest)
  match t with
  | 'n' :: _ => word "null" .null
  | 't' :: _ => word "true" (.bool true)
  | 'f' :: _ => word "false" (.bool false)
  | 'N' :: _ => word "NaN" (.double .nan)
  | 'I' :: _ => word "Infinity" (.double (.infinite false))
  | '-' :: 'I' :: _ => word "-Infinity" (.double (.infinite true))
  | '-' :: t => readUnsigned true t
  | t => readUnsigned false t

mutual

/-- A value at the very front of the text. -/
def read : (fuel : Nat) → Text → Option (Json × Text)
  | 0, _ => none
  | _ + 1, '"' :: t => (readString t).map fun (s, rest) => (.str s, rest)
  | fuel + 1, '[' :: t => match dropSpace t with
    | ']' :: rest => some (.arr [], rest)
    | t => (readItems fuel t).map fun (xs, rest) => (.arr xs, rest)
  | fuel + 1, '\x7b' :: t => match dropSpace t with
    | '\x7d' :: rest => some (.obj [], rest)
    | t => (readMembers fuel t).map fun (ms, rest) => (.obj (Keyed.ofList ms), rest)
  | _ + 1, t => readAtom t
  termination_by structural fuel => fuel

/-- The items of an array up to its closing bracket. -/
def readItems : (fuel : Nat) → Text → Option (List Json × Text)
  | 0, _ => none
  | fuel + 1, t => do
    let (x, rest) ← read fuel t
    match dropSpace rest with
    | ']' :: rest => return ([x], rest)
    | ',' :: rest =>
      let (xs, rest) ← readItems fuel (dropSpace rest)
      return (x :: xs, rest)
    | _ => none
  termination_by structural fuel => fuel

/-- The members of an object up to its closing brace. -/
def readMembers : (fuel : Nat) → Text → Option (Members × Text)
  | 0, _ => none
  | fuel + 1, t => do
    let '"' :: t := t | none
    let (k, rest) ← readString t
    let ':' :: t := dropSpace rest | none
    let (v, rest) ← read fuel (dropSpace t)
    match dropSpace rest with
    | '\x7d' :: rest => return ([(k, v)], rest)
    | ',' :: rest =>
      let (ms, rest) ← readMembers fuel (dropSpace rest)
      return ((k, v) :: ms, rest)
    | _ => none
  termination_by structural fuel => fuel

end

/-- The value that a text holds, with nothing but blanks around it. -/
def parse? (t : Text) : Option Json := do
  let (j, rest) ← read (t.length + 1) (dropSpace t)
  if (dropSpace rest).isEmpty then some j else none

end DocPages.Json
