import DocPages.Json.Basic
import DocPages.Number.Shortest

/-!
# Writing JSON

Three written forms of a value: on one line, on one line with everything outside printable ASCII as
`\u` escapes, and over several lines with two spaces of indentation.
-/

namespace DocPages.Json

def hexDigit (n : Nat) : Char := Nat.digitChar n

/-- A code unit as four hexadecimal digits. -/
def hex4 (n : Nat) : Text :=
  [hexDigit (n / 4096 % 16), hexDigit (n / 256 % 16), hexDigit (n / 16 % 16), hexDigit (n % 16)]

def writeUnit (n : Nat) : Text := '\\' :: 'u' :: hex4 n

/-- A character inside a string: quotes, backslashes and control characters are escaped. -/
def writeChar (c : Char) : Text :=
  match c with
  | '"' => ['\\', '"']
  | '\\' => ['\\', '\\']
  | '\n' => ['\\', 'n']
  | '\r' => ['\\', 'r']
  | '\t' => ['\\', 't']
  | '\x08' => ['\\', 'b']
  | '\x0c' => ['\\', 'f']
  | c => if c.toNat < 0x20 then writeUnit c.toNat else [c]

/-- The same with escapes for all that is not printable ASCII; a character outside the first plane takes
a pair of surrogates. -/
def writeAsciiChar (c : Char) : Text :=
  if 0x20 ≤ c.toNat ∧ c.toNat < 0x7f then writeChar c
  else if c.toNat < 0x80 ∧ (writeChar c).length = 2 then writeChar c
  else if c.toNat < 0x10000 then writeUnit c.toNat
  else
    let n := c.toNat - 0x10000
    writeUnit (0xd800 + n / 0x400) ++ writeUnit (0xdc00 + n % 0x400)

def writeString (char : Char → Text) (s : Text) : Text := '"' :: s.flatMap char ++ ['"']

def writeAtom (char : Char → Text) : Json → Text
  | .bool true => "true"
  | .bool false => "false"
  | .int n => Text.ofInt n
  | .double x => x.text "NaN" "Infinity"
  | .str s => writeString char s
  | _ => "null"

mutual

/-- On one line, with a blank behind each comma and colon. -/
def writeWith (char : Char → Text) : Json → Text
  | .arr [] => "[]"
  | .arr (x :: xs) => '[' :: writeWith char x ++ writeItems char xs
  | .obj ms => '\x7b' :: writeMembers char true ms
  | j => writeAtom char j
  termination_by structural j => j

def writeItems (char : Char → Text) : List Json → Text
  | [] => "]"
  | x :: xs => ", " ++ writeWith char x ++ writeItems char xs
  termination_by structural xs => xs

def writeMembers (char : Char → Text) (first : Bool) : List (Text × Json) → Text
  | [] => ['\x7d']
  | (k, v) :: ms => (if first then [] else ", ".toList) ++ writeString char k ++ ": "
      ++ writeWith char v ++ writeMembers char false ms
  termination_by structural ms => ms

end

def compact (j : Json) : Text := writeWith writeChar j

def ascii (j : Json) : Text := writeWith writeAsciiChar j

/-- A new line at the given depth. -/
def newline (depth : Nat) : Text := '\n' :: List.replicate (2 * depth) ' '

mutual

/-- Over several lines: one item or member a line, two spaces deeper than its brackets. -/
def indentedWith (char : Char → Text) (depth : Nat) : Json → Text
  | .arr [] => "[]"
  | .arr (x :: xs) => '[' :: newline (depth + 1) ++ indentedWith char (depth + 1) x
      ++ indentedItems char depth xs
  | .obj [] => ['\x7b', '\x7d']
  | .obj ((k, v) :: ms) => '\x7b' :: newline (depth + 1) ++ writeString char k ++ ": "
      ++ indentedWith char (depth + 1) v ++ indentedMembers char depth ms
  | j => writeAtom char j
  termination_by structural j => j

def indentedItems (char : Char → Text) (depth : Nat) : List Json → Text
  | [] => newline depth ++ "]"
  | x :: xs => ',' :: newline (depth + 1) ++ indentedWith char (depth + 1) x
      ++ indentedItems char depth xs
  termination_by structural xs => xs

def indentedMembers (char : Char → Text) (depth : Nat) : List (Text × Json) → Text
  | [] => newline depth ++ ['\x7d']
  | (k, v) :: ms => ',' :: newline (depth + 1) ++ writeString char k ++ ": "
      ++ indentedWith char (depth + 1) v ++ indentedMembers char depth ms
  termination_by structural ms => ms

end

def indented (j : Json) : Text := indentedWith writeChar 0 j

def indentedAscii (j : Json) : Text := indentedWith writeAsciiChar 0 j

end DocPages.Json
