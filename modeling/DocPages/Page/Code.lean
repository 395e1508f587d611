import DocPages.Html.Icon
import DocPages.Text.Class
import DocPages.Text.Pieces

/-!
# Blocks of code

Code is taken out of the text before anything else is looked for, so that components, marks and placeholder
lines inside it stay as written. Fences count at the left margin only; indented ones belong to list items. A
fence with a title gets a header of its own wherever it stands.
-/

namespace DocPages.Code

open Html

structure Titled where
  language : Text
  title : Text
  code : Text

def isLanguageChar (c : Char) : Bool := isWord c || c == '+' || c == '#' || c == '.' || c == '-'

def backticks : Text := ['\x60', '\x60', '\x60']

/-- A block of code with a title, up to the next three backticks. -/
def titled? : Reader Char Titled := fun t => do
  let t ← Text.after? backticks t
  let language := t.takeWhile isLanguageChar
  let t := t.dropWhile isLanguageChar
  if !t.head?.any isIndent then none
  let t ← Text.after? "title=\"" (t.dropWhile isIndent)
  let (title, t) ← Text.cut? "\"" t
  if title.isEmpty then none
  let (_, t) ← Text.cut? "\n" t
  let (code, t) ← Text.cut? backticks t
  return (⟨language, title, Text.trim (· == '\n') code⟩, t)

/-- A block of code below its title, with a button that copies it. -/
def Titled.html (b : Titled) : Html :=
  div "doc-code-block"
    (div "doc-code-header"
      (span "doc-code-filename" (.text b.title)
        ++ .element .button [.cls "doc-code-copy", .flag "data-copy-code"]
          (Icon.copy ++ .element .span [] (.text "Copy")))
      ++ .element .pre [] (.element .code
        (if b.language.isEmpty then [] else [.escaped "class" ("language-" ++ b.language)])
        (.text b.code)))

/-- The lines down to the first that consists of `n` fence characters and blanks. -/
def closeAt? (fence : Char) (n : Nat) : List Text → Option (List Text × List Text)
  | [] => none
  | line :: rest =>
    if line.take n == List.replicate n fence && (line.drop n).all isIndent && n ≤ line.length then
      some ([line], rest)
    else (closeAt? fence n rest).map fun (block, rest) => (line :: block, rest)

/-- The same with the longest closing fence that occurs, of `n` down to three characters. -/
def closeLongest? (fence : Char) : (n : Nat) → List Text → Option (List Text × List Text)
  | 0, _ => none
  | n + 1, lines => if n + 1 < 3 then none
    else (closeAt? fence (n + 1) lines).or (closeLongest? fence n lines)

/-- A block of code between fences of three or more backticks or tildes. The closing fence is as long as
the opening one, or as a part of it. -/
def fenced? : Reader Text (List Text)
  | [] => none
  | [] :: _ => none
  | (c :: line) :: rest =>
    if c = '\x60' ∨ c = '~' then
      (closeLongest? c ((c :: line).takeWhile (· == c)).length rest).map fun (block, rest) =>
        ((c :: line) :: block, rest)
    else none

/-- The text with each fenced block replaced. -/
def replaceFenced {m : Type → Type} [Monad m] (write : Text → m Text) (t : Text) : m Text := do
  let parts ← (pieces fenced? (Text.lines t)).mapM fun
    | .kept line => pure line
    | .found block => write (Text.join "\n" block)
  return Text.join "\n" parts

end DocPages.Code
