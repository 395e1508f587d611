import DocPages.Json.Reader

/-!
# Payloads

A payload stands between the braces of an attribute and may hold braces itself, nested or in strings. Its
end is found by counting braces outside double-quoted strings. The braces of the attribute may be those of
the payload: what is no value as it stands is tried once more with braces around it.
-/

namespace DocPages.Api

/-- Where a scan of a payload is: outside a string, inside one, or behind a backslash in one. -/
inductive Quoting where
  | outside | inside | escaped
  deriving DecidableEq

def Quoting.next : Quoting → Char → Quoting
  | outside, '"' => inside
  | outside, _ => outside
  | inside, '"' => outside
  | inside, '\\' => escaped
  | inside, _ => inside
  | escaped, _ => inside

/-- The number of open braces behind a character. -/
def depthAfter (q : Quoting) (depth : Int) (c : Char) : Int :=
  if q = .outside then
    if c = '\x7b' then depth + 1 else if c = '\x7d' then depth - 1 else depth
  else depth

/-- The text around the brace that closes the last open one. -/
def splitClosing (q : Quoting) (depth : Int) : Text → Option (Text × Text)
  | [] => none
  | c :: t =>
    if q = .outside ∧ c = '\x7d' ∧ depth = 1 then some ([], t)
    else (splitClosing (q.next c) (depthAfter q depth c) t).map fun (before, rest) =>
      (c :: before, rest)

/-- The index of the brace that closes the one at `start`. -/
def closingBrace? (t : Text) (start : Nat) : Option Nat :=
  (splitClosing .outside 0 (t.drop start)).map fun (before, _) => start + before.length

/-- The value of a payload, with the braces of its attribute if it needs them. -/
def payload? (raw : Text) : Option Json :=
  (Json.parse? raw).or (Json.parse? ('\x7b' :: raw ++ ['\x7d']))

end DocPages.Api
