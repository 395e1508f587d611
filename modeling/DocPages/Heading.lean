import DocPages.FrontMatter

/-!
# Headings

The outline of a document and the anchors of its headings. An anchor is the slug of the heading's text, in
the outline as in the page. Headings of the first level count as second, because the page title is the only
one of the first.
-/

namespace DocPages

def isSlugChar (c : Char) : Bool := isPlainLetter c || c.isDigit

/-- The runs of lower-case letters and digits, with a hyphen between two of them. -/
def slug (t : Text) : Text :=
  Text.join "-" ((splitWhere (fun c => !isSlugChar c) (Text.lower t)).filter (!·.isEmpty))

structure Heading where
  depth : Nat
  slug : Text
  text : Text
  deriving DecidableEq

namespace Heading

/-- Whether a text is nothing but blanks, or blanks and closing hashes. -/
def isClosing (t : Text) : Bool :=
  match Text.dropBlanks t with
  | [] => true
  | t' => t'.length < t.length && t'.head? == some '#' && Text.isBlank (t'.dropWhile (· == '#'))

/-- The text of a heading up to its closing hashes; it has at least one character. -/
def content : Text → Text
  | [] => []
  | c :: t => if isClosing t then [c] else c :: content t

/-- Level and text of a heading line of one to three hashes. A line of nothing but two or more blanks
behind the hashes is a heading without text. -/
def ofLine? (line : Text) : Option (Nat × Text) :=
  let level := (line.takeWhile (· == '#')).length
  let rest := line.dropWhile (· == '#')
  let body := Text.dropBlanks rest
  if level = 0 ∨ 3 < level ∨ body.length = rest.length then none
  else if body.isEmpty ∧ rest.length < 2 then none
  else some (level, Text.strip (content body))

/-- A line that opens or closes a block of code. -/
def togglesCode (line : Text) : Bool :=
  let line := Text.strip line
  Text.startsWith line ['\x60', '\x60', '\x60'] || Text.startsWith line "~~~"

/-- The headings of a list of lines, where `inCode` tells whether the first is inside a block of code. -/
def ofLines (inCode : Bool) : List Text → List Heading
  | [] => []
  | line :: rest =>
    if togglesCode line then ofLines (!inCode) rest
    else match if inCode then none else ofLine? line with
      | some (level, text) => ⟨max level 2, DocPages.slug text, text⟩ :: ofLines inCode rest
      | none => ofLines inCode rest

end Heading

/-- The headings of a document down to the third level. -/
def outline (t : Text) : List Heading :=
  Heading.ofLines false (Text.lines (FrontMatter.split t).2)

end DocPages
