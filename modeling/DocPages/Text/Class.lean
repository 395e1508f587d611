import DocPages.Text.Basic
import DocPages.Text.Table.Word
import DocPages.Text.Table.Digit
import DocPages.Text.Table.Hidden
import DocPages.Text.Table.Punctuation
import DocPages.Text.Table.Case

/-!
# Character classes

Blanks, words, digits, punctuation and case for all of the character set. Below U+0080 each class is a
comparison; above, a table of ranges. A blank is what separates words anywhere in a document, which
includes the four information separators and the line and paragraph separators; white space on a page is
less.
-/

namespace DocPages

def inRanges (ranges : List (Nat × Nat)) (n : Nat) : Bool :=
  ranges.any fun r => r.1 ≤ n && n ≤ r.2

def isBlank (c : Char) : Bool :=
  inRanges [(0x9, 0xd), (0x1c, 0x20), (0x85, 0x85), (0xa0, 0xa0), (0x1680, 0x1680), (0x2000, 0x200a),
    (0x2028, 0x2029), (0x202f, 0x202f), (0x205f, 0x205f), (0x3000, 0x3000)] c.toNat

/-- White space on a page: a blank other than the information separators and the control character for a next
line. -/
def isWhite (c : Char) : Bool := isBlank c && !inRanges [(0x1c, 0x1f), (0x85, 0x85)] c.toNat

/-- A space or a tab. -/
def isIndent (c : Char) : Bool := c == ' ' || c == '\t'

/-- A lower-case letter of the English alphabet. -/
def isPlainLetter (c : Char) : Bool := 'a' ≤ c && c ≤ 'z'

/-- A letter, number or underscore. -/
def isWord (c : Char) : Bool :=
  if c.toNat < 0x80 then c.isAlphanum || c == '_' else inRanges Text.Table.wordRanges c.toNat

def isDigit (c : Char) : Bool :=
  if c.toNat < 0x80 then c.isDigit else inRanges Text.Table.digitRanges c.toNat

/-- The value of a digit that forms numbers, in any script. -/
def digitValue? (c : Char) : Option Nat :=
  if c.isDigit then some (c.toNat - 0x30)
  else (Text.Table.decimalRanges.find? fun r => r.1 ≤ c.toNat && c.toNat ≤ r.2).map
    fun r => (c.toNat - r.1) % 10

/-- A digit that forms numbers. -/
def isDecimal (c : Char) : Bool := (digitValue? c).isSome

/-- A character without a glyph, which a quoted text shows by number. -/
def isHidden (c : Char) : Bool :=
  if c.toNat < 0x80 then c.toNat < 0x20 || c.toNat == 0x7f else inRanges Text.Table.hiddenRanges c.toNat

def isPlainPunctuation (c : Char) : Bool :=
  inRanges [(0x21, 0x2f), (0x3a, 0x40), (0x5b, 0x60), (0x7b, 0x7e)] c.toNat

def isPunctuation (c : Char) : Bool :=
  if c.toNat < 0x80 then isPlainPunctuation c else inRanges Text.Table.punctuationRanges c.toNat

namespace Text

/-- The image of a code point under the run that holds it, or itself. -/
def applyRuns (runs : List Table.Run) (n : Nat) : Nat :=
  match runs.find? fun r => r.first ≤ n && n ≤ r.last && (n - r.first) % r.stride == 0 with
  | some r => (n + r.shift).toNat
  | none => n

/-- The capital I with a dot keeps the dot as a mark of its own. -/
def lowerChar (c : Char) : Text :=
  if c.toNat < 0x80 then [c.toLower]
  else if c.toNat = 0x130 then ['i', Char.ofNat 0x307]
  else [Char.ofNat (applyRuns Table.lowerRuns c.toNat)]

def upperChar (c : Char) : Text :=
  if c.toNat < 0x80 then [c.toUpper]
  else match Table.upperExpansions.lookup c.toNat with
    | some ns => ns.map Char.ofNat
    | none => [Char.ofNat (applyRuns Table.upperRuns c.toNat)]

/-- Lower case, letter by letter: a sigma has the same form at the end of a word. -/
def lower (t : Text) : Text := t.flatMap lowerChar

def upper (t : Text) : Text := t.flatMap upperChar

def isBlank (t : Text) : Bool := t.all DocPages.isBlank

/-- The text without the blanks around it. -/
def strip (t : Text) : Text := trim DocPages.isBlank t

def dropBlanks (t : Text) : Text := trimStart DocPages.isBlank t

/-- A non-empty run of digits. -/
def isDigits (t : Text) : Bool := !t.isEmpty && t.all isDigit

/-- The digits of a number, of which two may be separated by one underscore. -/
def readDigits (value : Nat) : Text → Option Nat
  | [] => some value
  | '_' :: c :: t => do readDigits (10 * value + (← digitValue? c)) t
  | c :: t => do readDigits (10 * value + (← digitValue? c)) t

/-- A whole number: blanks around it, a sign in front and digits of any script are accepted. -/
def toInt? (t : Text) : Option Int :=
  match strip t with
  | '-' :: c :: t => do return -Int.ofNat (← readDigits (← digitValue? c) t)
  | '+' :: c :: t => do return Int.ofNat (← readDigits (← digitValue? c) t)
  | c :: t => do return Int.ofNat (← readDigits (← digitValue? c) t)
  | [] => none

end Text

end DocPages
