import DocPages.Text.Class

/-!
# Lines

A line as a block of Markdown sees it. Inside quotes and lists a line begins further right than on the page,
and tabs reach to stops that are counted from the edge of the page; so a line knows where its content begins,
how far that is indented in columns, and how far its left edge is from a tab stop.
-/

namespace DocPages.Markdown

structure Line where
  text : Text
  /-- How many characters stand in front of the content. -/
  shift : Nat
  /-- The column of the content; negative for a line that only continues a paragraph of a quote. -/
  indent : Int
  /-- How many columns the left edge is from a tab stop. -/
  base : Nat
  /-- Whether a line break follows. -/
  ends : Bool

namespace Line

def content (l : Line) : Text := l.text.drop l.shift

def isEmpty (l : Line) : Bool := l.text.length ≤ l.shift

/-- The column behind a character at a column, where tab stops are `base` columns off. -/
def advance (base col : Nat) (c : Char) : Nat :=
  if c = '\t' then col + 4 - (col + base) % 4 else col + 1

/-- The number of blanks at the front of a text and the column behind them. -/
def skipIndent (base : Nat) : (count col : Nat) → Text → Nat × Nat
  | count, col, c :: t =>
    if isIndent c then skipIndent base (count + 1) (advance base col c) t else (count, col)
  | count, col, [] => (count, col)

def ofText (t : Text) (ends : Bool) : Line :=
  let (shift, col) := skipIndent 0 0 0 t
  ⟨t, shift, col, 0, ends⟩

/-- The lines of a text. Blanks behind the last line break are no line. -/
def ofParts : List Text → List Line
  | [] => []
  | [t] => if t.all isIndent then [] else [ofText t false]
  | t :: ts => ofText t true :: ofParts ts

/-- What is left of a line if it is cut at a column; characters in front of the content count as blanks, and
a tab across the column leaves spaces behind. -/
def cutFrom (l : Line) (column : Nat) : (count col : Nat) → Text → Text
  | count, col, c :: t =>
    if column ≤ col then List.replicate (col - column) ' ' ++ c :: t
    else if isIndent c then cutFrom l column (count + 1) (advance l.base col c) t
    else if count < l.shift then cutFrom l column (count + 1) (col + 1) t
    else c :: t
  | _, col, [] => List.replicate (col - column) ' '

def cut (l : Line) (column : Int) : Text := cutFrom l column.toNat 0 0 l.text

/-- The text with the line break that follows it. -/
def close (l : Line) (t : Text) : Text := if l.ends then t ++ ['\n'] else t

/-- Lines cut at a column, one below the other. -/
def cutAll (column : Int) (ls : List Line) : Text := ls.flatMap fun l => l.close (l.cut column)

/-- Lines cut at a column, without the white space around them all. -/
def joined (column : Int) (ls : List Line) : Text :=
  Text.trim isWhite (Text.join "\n" (ls.map fun l => l.cut column))

/-- Whether the content is the mark of a quote. -/
def isQuoted (l : Line) : Bool := l.content.head? == some '>'

/-- The line inside the quote that it is marked with. One blank behind the mark belongs to it; of a tab only
the first column does. -/
def unquote (l : Line) : Line :=
  let column := l.indent.toNat + 1
  let rest := l.text.drop (l.shift + 1)
  let inside (spaced : Bool) (start base : Nat) (rest : Text) : Line :=
    let (shift, col) := skipIndent base 0 start rest
    ⟨rest, shift, (col : Int) - start, l.indent.toNat + 1 + (if spaced then 1 else 0), l.ends⟩
  match rest with
  | ' ' :: t => inside true (column + 1) l.base t
  | '\t' :: t =>
    if (l.base + column) % 4 = 3 then inside true (column + 1) l.base t
    else inside true column (l.base + 1) rest
  | _ => inside false column l.base rest

end Line

end DocPages.Markdown
