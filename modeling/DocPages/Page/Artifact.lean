import DocPages.Text.Class
import DocPages.Text.Pieces

/-!
# Authoring artifacts

Generated documents carry comments that mark generated regions and lines that say that a section is empty.
Neither belongs on the page.
-/

namespace DocPages.Artifact

/-- The end of a mark: the word for its side, blanks and the end of the comment. -/
def markEnd? (t : Text) : Option Text := do
  let t ← (Text.after? ":START" t).or (Text.after? ":END" t)
  Text.after? "-->" (Text.dropBlanks t)

/-- What follows the first end of a mark within the same comment. -/
def afterMarkEnd? : Text → Option Text
  | [] => none
  | c :: t => (markEnd? (c :: t)).or (if c = '>' then none else afterMarkEnd? t)

/-- A mark of a generated region, with the blanks and the line break behind it. -/
def mark? : Reader Char Unit := fun t => do
  let t ← Text.after? "<!--" t
  let t ← Text.after? "AUTO:" (Text.dropBlanks t)
  let t ← afterMarkEnd? t
  match t.dropWhile isIndent with
  | '\n' :: t => return ((), t)
  | t => return ((), t)

def removeMarks (t : Text) : Text := Text.mapFound mark? (fun _ => []) t

def emptySections : List Text :=
  ["No parameters", "No request body", "No responses", "No responses defined",
   "No security requirements", "No authentication required", "No headers"]

def isEmphasis (c : Char) : Bool := c == '_' || c == '*'

/-- What may stand behind the words of an empty section: a full stop, emphasis and blanks. -/
def isSectionEnd (t : Text) : Bool :=
  let t := match t with
    | '.' :: t => t
    | t => t
  (t.dropWhile isEmphasis).all isIndent

/-- A line that says that a section is empty. -/
def saysEmpty (line : Text) : Bool :=
  let line := (line.dropWhile isIndent).dropWhile isEmphasis
  emptySections.any fun words => (Text.after? words line).any isSectionEnd

/-- Drops lines that say that a section is empty; of the last line the break in front remains. -/
def dropEmptySections : List Text → List Text
  | [] => []
  | [line] => if saysEmpty line then [[]] else [line]
  | line :: rest => if saysEmpty line then dropEmptySections rest else line :: dropEmptySections rest

/-- The text without authoring artifacts. -/
def strip (t : Text) : Text :=
  Text.join "\n" (dropEmptySections (Text.lines (removeMarks t)))

end DocPages.Artifact
