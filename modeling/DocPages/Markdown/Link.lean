import DocPages.Markdown.Escape
import DocPages.Markdown.Url

/-!
# Parts of links

Destinations, titles and labels, which inline links and link definitions have in common.
-/

namespace DocPages.Markdown

/-- Where a link leads, with a title that may be empty. -/
structure Target where
  href : Text
  title : Text

/-- The targets of link definitions by label. -/
abbrev Targets := List (Text × Target)

namespace Link

/-- The inside of a destination in angle brackets and what follows it. -/
def bracketed? : Text → Option (Text × Text)
  | '>' :: t => some ([], t)
  | '\n' :: _ => none
  | '<' :: _ => none
  | '\\' :: c :: t => (bracketed? t).map fun (inside, rest) => ('\\' :: c :: inside, rest)
  | c :: t => (bracketed? t).map fun (inside, rest) => (c :: inside, rest)
  | [] => none

/-- A destination without brackets: up to a blank, a control character or a parenthesis that closes more
than was opened. -/
def bare? (depth : Nat) : Text → Option (Text × Text)
  | [] => if depth = 0 then some ([], []) else none
  | '\\' :: c :: t =>
    if c = ' ' then if depth = 0 then some ([], '\\' :: c :: t) else none
    else (bare? depth t).map fun (inside, rest) => ('\\' :: c :: inside, rest)
  | c :: t =>
    let stop := if depth = 0 then some ([], c :: t) else none
    let keep (depth : Nat) := (bare? depth t).map fun (inside, rest) => (c :: inside, rest)
    if c.toNat ≤ 0x20 ∨ c.toNat = 0x7f then stop
    else if c = '(' then if 32 ≤ depth then none else keep (depth + 1)
    else if c = ')' then if depth = 0 then stop else keep (depth - 1)
    else keep depth

/-- A destination with escapes replaced, and what follows it. -/
def destination? (t : Text) : Option (Text × Text) :=
  match t with
  | '<' :: t => (bracketed? t).map fun (inside, rest) => (unescape inside, rest)
  | t => match bare? 0 t with
    | some (c :: inside, rest) => some (unescape (c :: inside), rest)
    | _ => none

/-- How far a title goes: it is closed, it is not closed in the text at hand, or it is no title. -/
inductive TitleRest where
  | closed (inside rest : Text)
  | unclosed (inside : Text)
  | broken

def TitleRest.push (c : Char) : TitleRest → TitleRest
  | closed inside rest => closed (c :: inside) rest
  | unclosed inside => unclosed (c :: inside)
  | broken => broken

/-- The rest of a title behind its opening mark. -/
def titleRest (close : Char) : Text → TitleRest
  | [] => .unclosed []
  | '\\' :: c :: t => ((titleRest close t).push c).push '\\'
  | c :: t =>
    if c = close then .closed [] t
    else if c = '(' ∧ close = ')' then .broken
    else (titleRest close t).push c

/-- The mark that closes a title. -/
def closingMark? (c : Char) : Option Char :=
  if c = '"' ∨ c = '\'' then some c else if c = '(' then some ')' else none

/-- A title with escapes replaced, and what follows it. -/
def title? (t : Text) : Option (Text × Text) := do
  let c :: t := t | none
  match titleRest (← closingMark? c) t with
  | .closed inside rest => some (unescape inside, rest)
  | _ => none

/-- White space collapsed into single spaces. -/
def collapse : Text → Text
  | [] => []
  | c :: t =>
    if isWhite c then
      match collapse t with
      | ' ' :: rest => ' ' :: rest
      | rest => ' ' :: rest
    else c :: collapse t

/-- A label in the form in which labels are compared. -/
def normalizeLabel (t : Text) : Text := Text.upper (Text.lower (collapse (Text.trim isWhite t)))

def isSpace (c : Char) : Bool := isIndent c || c == '\n'

def dropSpace (t : Text) : Text := t.dropWhile isSpace

/-- What stands in parentheses behind the text of a link: a target, something else whose first character
that does not fit is passed over, or nothing at all. -/
inductive Inline where
  | target (target : Target) (rest : Text)
  | other (rest : Text)
  | nothing

/-- A title with a blank in front of it; without one it is empty. -/
def optionalTitle (t : Text) : Text × Text :=
  let behind := dropSpace t
  match if behind.length < t.length then title? behind else none with
  | some (title, rest) => (title, dropSpace rest)
  | none => ([], behind)

/-- Reads the parentheses behind the text of a link, of which the first has been read. -/
def readInline (t : Text) : Inline :=
  match dropSpace t with
  | [] => .nothing
  | t =>
    let (href, title, rest) := match destination? t with
      | some (d, rest) =>
        let href := Url.normalize d
        if Url.isSafe href then (href, optionalTitle rest) else ([], [], t)
      | none => ([], [], t)
    match rest with
    | ')' :: rest => .target ⟨href, title⟩ rest
    | rest => .other (rest.drop 1)

/-- The rest of the label of a definition behind its bracket, up to the colon. -/
def definitionLabel? : Text → Option (Text × Text)
  | ']' :: ':' :: t => some ([], t)
  | ']' :: _ => none
  | '[' :: _ => none
  | '\\' :: c :: t => (definitionLabel? t).map fun (label, rest) => ('\\' :: c :: label, rest)
  | c :: t => (definitionLabel? t).map fun (label, rest) => (c :: label, rest)
  | [] => none

/-- The rest of a line that holds nothing more. -/
def lineEnd? (t : Text) : Option Text :=
  match t.dropWhile isIndent with
  | [] => some []
  | '\n' :: t => some ('\n' :: t)
  | _ => none

/-- A title behind a destination that ends its line. A title that is followed by something else gives `none`;
it is then no part of the definition, unless it is empty, which makes the definition void. -/
def definitionTitle? (t : Text) : Option (Option (Text × Text)) :=
  let behind := dropSpace t
  match if behind.length < t.length then title? behind else none with
  | none => some none
  | some (title, rest) => match lineEnd? rest with
    | some rest => some (some (title, rest))
    | none => if title.isEmpty then none else some none

/-- A definition at the front of a text: label, target and what follows, which is empty or begins with a
line break. The destination is on one line; if it passes over the break behind a backslash, there is no title. -/
def definition? (t : Text) : Option (Text × Target × Text) := do
  let '[' :: t := t | none
  let (label, t) ← definitionLabel? t
  let t := dropSpace t
  let line := t.takeWhile (· != '\n')
  let more := t.drop line.length
  let (d, t) ← destination? (line ++ more.take 1)
  let href := Url.normalize d
  if !Url.isSafe href then none
  let (title, rest) ← if t.isEmpty then some ([], more)
    else
      let t := t ++ more.drop 1
      (← definitionTitle? t).or ((lineEnd? t).map fun rest => ([], rest))
  let label := normalizeLabel label
  if label.isEmpty then none
  return (label, ⟨href, title⟩, rest)

end Link

end DocPages.Markdown
