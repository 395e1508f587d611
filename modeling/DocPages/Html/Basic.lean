import DocPages.Text.Basic

/-!
# HTML fragments

Templates build fragments as trees, so tags always match, and text is escaped when the tree is written.
What has been written already, such as the body of a card that went through the Markdown engine, enters a
tree as `raw`.
-/

namespace DocPages

namespace Html

def escapeChar : Char → Text
  | '&' => "&amp;"
  | '<' => "&lt;"
  | '>' => "&gt;"
  | '"' => "&quot;"
  | '\'' => "&#x27;"
  | c => [c]

/-- The text with the five characters of markup as entities. -/
def escape (t : Text) : Text := t.flatMap escapeChar

@[simp] theorem escape_nil : escape [] = [] := rfl

@[simp] theorem escape_append (s t : Text) : escape (s ++ t) = escape s ++ escape t := by
  simp [escape]

end Html

/-- The elements that templates use. -/
inductive Tag where
  | a | button | circle | code | details | div | ellipse | line | path | polygon | polyline | pre
  | rect | span | summary | svg
  deriving DecidableEq

def Tag.name : Tag → Text
  | a => "a"
  | button => "button"
  | circle => "circle"
  | code => "code"
  | details => "details"
  | div => "div"
  | ellipse => "ellipse"
  | line => "line"
  | path => "path"
  | polygon => "polygon"
  | polyline => "polyline"
  | pre => "pre"
  | rect => "rect"
  | span => "span"
  | summary => "summary"
  | svg => "svg"

/-- An attribute without a value, with a value that is written as it is, or with one that is escaped. -/
inductive Attr where
  | flag (name : Text)
  | fixed (name value : Text)
  | escaped (name value : Text)

namespace Attr

def write : Attr → Text
  | flag name => ' ' :: name
  | fixed name value => ' ' :: name ++ "=\"" ++ value ++ "\""
  | escaped name value => ' ' :: name ++ "=\"" ++ Html.escape value ++ "\""

def cls (value : Text) : Attr := fixed "class" value

end Attr

inductive Html where
  | empty
  | text (t : Text)
  | raw (t : Text)
  | element (tag : Tag) (attrs : List Attr) (body : Html)
  /-- An element that closes itself. -/
  | leaf (tag : Tag) (attrs : List Attr)
  | append (a b : Html)

namespace Html

instance : Append Html := ⟨Html.append⟩

def concat : List Html → Html
  | [] => empty
  | h :: hs => h ++ concat hs

def write : Html → Text
  | empty => []
  | text t => escape t
  | raw t => t
  | element tag attrs body =>
    '<' :: tag.name ++ attrs.flatMap Attr.write ++ ">" ++ write body ++ "</" ++ tag.name ++ ">"
  | leaf tag attrs => '<' :: tag.name ++ attrs.flatMap Attr.write ++ "/>"
  | append a b => write a ++ write b

@[simp] theorem write_empty : write empty = [] := rfl
@[simp] theorem write_text (t : Text) : write (text t) = escape t := rfl
@[simp] theorem write_raw (t : Text) : write (raw t) = t := rfl
@[simp] theorem write_append (a b : Html) : write (a ++ b) = write a ++ write b := rfl

@[simp] theorem write_concat (hs : List Html) : write (concat hs) = hs.flatMap write := by
  induction hs with
  | nil => rfl
  | cons h hs ih => simp [concat, ih]

def div (cls : Text) (body : Html) : Html := element .div [.cls cls] body

def span (cls : Text) (body : Html) : Html := element .span [.cls cls] body

def code (cls : Text) (body : Html) : Html := element .code [.cls cls] body

/-- The fragment if the condition holds. -/
def when (b : Bool) (h : Html) : Html := if b then h else empty

end Html

end DocPages
