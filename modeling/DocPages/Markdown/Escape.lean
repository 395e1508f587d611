import DocPages.Markdown.Table.Entities
import DocPages.Text.Class
import DocPages.Text.Pieces

/-!
# Escapes and character references

A backslash takes the meaning of a punctuation character away, and a character may be written by name or by
number. In running text the two are constructs of their own; in addresses, titles and info strings they are
simply replaced.
-/

namespace DocPages.Markdown

/-- Whether a number may be referred to: no surrogate, no control character other than a blank, and none of
the code points that never stand for a character. -/
def isReferable (n : Nat) : Bool :=
  !(0xd800 ≤ n && n ≤ 0xdfff) && !(0xfdd0 ≤ n && n ≤ 0xfdef) && n % 0x10000 < 0xfffe
    && !(n ≤ 0x8 || n == 0xb || (0xe ≤ n && n ≤ 0x1f) || (0x7f ≤ n && n ≤ 0x9f)) && n ≤ 0x10ffff

def named? (name : Text) : Option Text :=
  (Table.entities.lookup (String.ofList name)).map fun ns => ns.map Char.ofNat

def isHexDigit (c : Char) : Bool := c.isDigit || ('a' ≤ c && c ≤ 'f') || ('A' ≤ c && c ≤ 'F')

def hexDigitValue (c : Char) : Nat :=
  if c.isDigit then c.toNat - 0x30 else if c ≤ 'F' then c.toNat - 0x41 + 10 else c.toNat - 0x61 + 10

def isHexMark (c : Char) : Bool := c == 'x' || c == 'X'

/-- A number in decimal, or in hexadecimal behind an `x`, with a limit on the digits of each. -/
def number? (decimals hexDigits : Nat) (t : Text) : Option Nat :=
  let value (base : Nat) (digit : Char → Nat) (ds : Text) := ds.foldl (fun n c => base * n + digit c) 0
  match t with
  | [] => none
  | c :: ds =>
    if isHexMark c then
      if ds.isEmpty || hexDigits < ds.length || !ds.all isHexDigit then none
      else some (value 16 hexDigitValue ds)
    else if decimals < t.length || !t.all Char.isDigit then none
    else some (value 10 (fun c => c.toNat - 0x30) t)

/-- What stands between an ampersand that has been read and the next semicolon. -/
def referenceName? (t : Text) : Option (Text × Text) := do
  let name := t.takeWhile fun c => c.isAlphanum || c == '#'
  let ';' :: rest := t.drop name.length | none
  return (name, rest)

/-- A character reference in running text. A number that stands for nothing gives the replacement
character. -/
def reference? : Reader Char Text := fun t => do
  let t ← Text.after? "&" t
  let (name, rest) ← referenceName? t
  match name with
  | '#' :: ds =>
    let n ← number? 7 6 ds
    return ([if isReferable n then Char.ofNat n else Char.ofNat 0xfffd], rest)
  | _ => return (← named? name, rest)

/-- A character reference where escapes are replaced. A number that stands for nothing stays as written. -/
def plainReference? : Reader Char Text := fun t => do
  let t ← Text.after? "&" t
  let (name, rest) ← referenceName? t
  match name with
  | '#' :: ds =>
    let n ← number? 8 8 ds
    if isReferable n then some ([Char.ofNat n], rest) else none
  | _ => return (← named? name, rest)

/-- A punctuation character behind a backslash. -/
def escaped? : Reader Char Text
  | '\\' :: c :: t => if isPlainPunctuation c then some ([c], t) else none
  | _ => none

/-- The text with escapes and character references replaced. -/
def unescape (t : Text) : Text :=
  Text.mapFound (fun t => (escaped? t).or (plainReference? t)) id t

end DocPages.Markdown
