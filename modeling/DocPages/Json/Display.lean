import DocPages.Json.Writer
import DocPages.Text.Class

/-!
# Values in running text

How a value reads in a label, a description or a constraint: a string as it is, anything else in a notation
of its own with `True`, `False`, `None` and strings in single quotes.
-/

namespace DocPages.Json

/-- A character by number, in as many digits as its size needs. -/
def numbered (c : Char) : Text :=
  if c.toNat < 0x100 then '\\' :: 'x' :: (hex4 c.toNat).drop 2
  else if c.toNat < 0x10000 then '\\' :: 'u' :: hex4 c.toNat
  else '\\' :: 'U' :: hex4 (c.toNat / 0x10000) ++ hex4 c.toNat

def quoteChar (quote c : Char) : Text :=
  if c = quote ∨ c = '\\' then ['\\', c]
  else if c = '\n' then ['\\', 'n']
  else if c = '\r' then ['\\', 'r']
  else if c = '\t' then ['\\', 't']
  else if isHidden c then numbered c
  else [c]

/-- A string in single quotes, or in double quotes if it holds single ones only. -/
def quoted (s : Text) : Text :=
  let quote := if s.contains '\'' && !s.contains '"' then '"' else '\''
  quote :: s.flatMap (quoteChar quote) ++ [quote]

mutual

def literal : Json → Text
  | .null => "None"
  | .bool true => "True"
  | .bool false => "False"
  | .int n => Text.ofInt n
  | .double x => x.text "nan" "inf"
  | .str s => quoted s
  | .arr [] => "[]"
  | .arr (x :: xs) => '[' :: literal x ++ literalItems xs
  | .obj ms => '\x7b' :: literalMembers true ms
  termination_by structural j => j

def literalItems : List Json → Text
  | [] => "]"
  | x :: xs => ", " ++ literal x ++ literalItems xs
  termination_by structural xs => xs

def literalMembers (first : Bool) : List (Text × Json) → Text
  | [] => ['\x7d']
  | (k, v) :: ms => (if first then [] else ", ".toList) ++ quoted k ++ ": " ++ literal v
      ++ literalMembers false ms
  termination_by structural ms => ms

end

/-- A string as it is, any other value as a literal. -/
def display : Json → Text
  | .str s => s
  | j => literal j

/-- The same with nothing for `null`. -/
def displayed : Json → Text
  | .null => []
  | j => display j

end DocPages.Json
