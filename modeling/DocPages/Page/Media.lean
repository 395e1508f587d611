import DocPages.Text.Class
import DocPages.Text.Pieces

/-!
# Media addresses

Paths below the reserved root are replaced by full addresses in images, be they written in Markdown or as
tags, before the Markdown engine sees them.
-/

namespace DocPages.Media

/-- An address with what stands in front of it and behind it. -/
structure Reference where
  before : Text
  url : Text
  after : Text

def isPathChar (c : Char) : Bool := !(c == ')' || isBlank c)

/-- A path below the root with at least one character more, taken as far as its characters go. -/
def path? (root : Text) (isChar : Char → Bool) (t : Text) : Option (Text × Text) := do
  let t ← Text.after? root t
  let path := t.takeWhile isChar
  if path.isEmpty then none else some (root ++ path, t.dropWhile isChar)

/-- An image in Markdown. -/
def image? (root : Text) : Reader Char Reference := fun t => do
  let t ← Text.after? "![" t
  let (label, t) ← Text.cut? "]" t
  let '(' :: t := t | none
  let (url, t) ← path? root isPathChar t
  let (title, t) ← Text.cut? ")" t
  return (⟨"![" ++ label ++ "](", url, title ++ ")"⟩, t)

def isQuote (c : Char) : Bool := c == '"' || c == '\''

/-- A source attribute at the front of a text; either quote may end it. -/
def source? (root : Text) (t : Text) : Option (Reference × Text) := do
  let q :: t ← Text.after? "src=" t | none
  if !isQuote q then none
  let (url, t) ← path? root (!isQuote ·) t
  let q' :: t := t | none
  return (⟨"src=" ++ [q], url, [q']⟩, t)

/-- The last source attribute that begins before the tag ends. -/
def lastSource? (root : Text) : Text → Option (Reference × Text)
  | [] => none
  | c :: t =>
    let later := if c = '>' then none else
      (lastSource? root t).map fun (r, rest) => ({ r with before := c :: r.before }, rest)
    later.or (source? root (c :: t))

/-- An image tag. -/
def imageTag? (root : Text) : Reader Char Reference := fun t => do
  let c :: t ← Text.after? "<img" t | none
  if !isBlank c then none
  let (r, t) ← lastSource? root t
  return ({ r with before := "<img" ++ c :: r.before }, t)

/-- The text with all media paths below the root resolved. -/
def resolveAll (root : Text) (resolve : Text → Text) (t : Text) : Text :=
  let write (r : Reference) : Text := r.before ++ resolve r.url ++ r.after
  Text.mapFound (imageTag? root) write (Text.mapFound (image? root) write t)

end DocPages.Media
