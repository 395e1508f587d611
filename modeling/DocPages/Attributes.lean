import DocPages.Keyed
import DocPages.Text.Class
import DocPages.Text.Pieces

/-!
# Attributes of component tags

Attributes are written `name="value"`, `name='value'`, `name={value}` or `name=value`, with blanks around
the sign if need be. Anything else between the brackets of a tag is passed over.
-/

namespace DocPages

/-- Values by name, in the order in which the names first appear. -/
abbrev Attributes := Keyed Text

namespace Attributes

def isNameChar (c : Char) : Bool := isWord c || c == '-'

/-- A character of a value without delimiters. -/
def isBareChar (c : Char) : Bool :=
  !(isBlank c || c == '"' || c == '\'' || c == '>' || c == '/' || c == '\x7b' || c == '\x7d')

/-- A value up to its closing delimiter. -/
def delimited (close : Char) (t : Text) : Option (Text × Text) :=
  Text.cut? [close] t

def value? (t : Text) : Option (Text × Text) :=
  let other := match t.takeWhile isBareChar with
    | [] => none
    | v => some (v, t.dropWhile isBareChar)
  match t with
  | '"' :: t => delimited '"' t
  | '\'' :: t => delimited '\'' t
  | '\x7b' :: t => delimited '\x7d' t
  | _ => other

/-- An attribute at the front of a text. -/
def attribute? : Reader Char (Text × Text) := fun t => do
  let name := t.takeWhile isNameChar
  if name.isEmpty then none
  let '=' :: rest := Text.dropBlanks (t.dropWhile isNameChar) | none
  let (value, rest) ← value? (Text.dropBlanks rest)
  return ((name, Text.strip value), rest)

def parse (t : Text) : Attributes := Keyed.ofList (found attribute? t)

/-- The value of a name, empty if there is none. -/
def get (as : Attributes) (name : Text) : Text := (as.get? name).getD []

end Attributes

end DocPages
