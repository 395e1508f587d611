import DocPages.Markdown.HtmlTag
import DocPages.Markdown.Line
import DocPages.Markdown.Link

/-!
# Blocks

The blocks of a text and how they are read. A block is told by its first line, except that a row of hyphens
or equals signs makes the lines above it a heading and a row of columns the line above it the head of a
table. Quotes and lists hold blocks; the lines of a paragraph inside them may lack their marks. Definitions
of links are no blocks: their targets are gathered while blocks are read.
-/

namespace DocPages.Markdown

inductive Alignment where
  | none | left | center | right
  deriving DecidableEq

inductive Block where
  | paragraph (text : Text)
  | heading (level : Nat) (text : Text)
  | rule
  | code (text : Text)
  | fence (info text : Text)
  | html (text : Text)
  | quote (blocks : List Block)
  /-- A list with the number of its first item, if items are numbered. In a tight list the items are not set
  apart as paragraphs. -/
  | list (first : Option Nat) (tight : Bool) (items : List (List Block))
  | table (columns : List (Alignment × Text)) (rows : List (List Text))

namespace Block

/-- Where blocks are read: the column of the content, that of the list around it, and how deep. -/
structure Context where
  indent : Int
  listIndent : Int
  level : Nat

def isCode (ctx : Context) (l : Line) : Bool := 4 ≤ l.indent - ctx.indent

/-- The character and the length of an opening fence, and what stands behind it. -/
def fenceStart? (ctx : Context) (l : Line) : Option (Char × Nat × Text) := do
  if isCode ctx l then none
  let c :: t := l.content | none
  let run := ((c :: t).takeWhile (· == c)).length
  let info := (c :: t).drop run
  if (c == '\x60' || c == '~') && 3 ≤ run && !(c == '\x60' && info.contains '\x60') then
    some (c, run, info)
  else none

def isFenceEnd (ctx : Context) (c : Char) (run : Nat) (l : Line) : Bool :=
  let marks := l.content.takeWhile (· == c)
  !isCode ctx l && run ≤ marks.length && (l.content.drop marks.length).all isIndent

/-- The lines of a fenced block behind the opening fence, and what follows the block. -/
def fenceBody (ctx : Context) (c : Char) (run : Nat) : List Line → List Line × List Line
  | [] => ([], [])
  | l :: ls =>
    if !l.isEmpty && l.indent < ctx.indent then ([], l :: ls)
    else if isFenceEnd ctx c run l then ([], ls)
    else
      let (body, rest) := fenceBody ctx c run ls
      (l :: body, rest)

/-- Three or more asterisks, hyphens or underscores and nothing else. -/
def isRule (ctx : Context) (l : Line) : Bool :=
  match l.content with
  | c :: t => !isCode ctx l && (c == '*' || c == '-' || c == '_')
      && t.all (fun d => d == c || isIndent d) && 3 ≤ (c :: t).count c
  | [] => false

/-- Level and text of a heading, without hashes that close it. -/
def heading? (ctx : Context) (l : Line) : Option (Nat × Text) :=
  let level := (l.content.takeWhile (· == '#')).length
  let t := l.content.drop level
  if isCode ctx l || level = 0 || 6 < level || !(t.isEmpty || t.head?.any isIndent) then none
  else
    let t := Text.trimEnd isIndent t
    let open' := Text.trimEnd (· == '#') t
    some (level, Text.trim isWhite (if open'.getLast?.any isIndent then open' else t))

/-- The mark in front of a list item. -/
structure Marker where
  number : Option Nat
  char : Char
  width : Nat

def marker? (l : Line) : Option Marker :=
  let ends (t : Text) : Bool := t.isEmpty || t.head?.any isIndent
  let digits := l.content.takeWhile Char.isDigit
  match digits, l.content.drop digits.length with
  | [], c :: t =>
    if (c == '*' || c == '-' || c == '+') && ends t then some ⟨none, c, 1⟩ else none
  | ds, c :: t =>
    if (c == '.' || c == ')') && ds.length ≤ 9 && ends t then
      some ⟨some (ds.foldl (fun n d => 10 * n + (d.toNat - 0x30)) 0), c, ds.length + 1⟩
    else none
  | _, [] => none

/-- The marker of a list that begins with a line. A list that follows a paragraph without an empty line has
to begin with a first item that is not empty. -/
def listStart? (ctx : Context) (followsParagraph : Bool) (l : Line) : Option Marker := do
  let tooDeep := 0 ≤ ctx.listIndent && 4 ≤ l.indent - ctx.listIndent && l.indent < ctx.indent
  if isCode ctx l || tooDeep then none
  let m ← marker? l
  let strict := followsParagraph && ctx.indent ≤ l.indent
  if strict && (m.number.any (· != 1) || (l.content.drop m.width).all isIndent) then none
  return m

def htmlStart? (ctx : Context) (l : Line) : Option HtmlTag.BlockStart :=
  if isCode ctx l then none else HtmlTag.blockStart? l.content

/-- The cells of a row; a bar behind a backslash does not separate. -/
def cells (cell : Text) : Text → List Text
  | [] => [cell.reverse]
  | '\\' :: '|' :: t => cells ('|' :: cell) t
  | '|' :: t => cell.reverse :: cells [] t
  | c :: t => cells (c :: cell) t

/-- The cells of a line, without empty ones outside the first and the last bar. -/
def rowCells (l : Line) : List Text :=
  let cs := cells [] (Text.trim isWhite l.content)
  let cs := if cs.head? = some [] then cs.drop 1 else cs
  if cs.getLast? = some [] then cs.dropLast else cs

def isColumnChar (c : Char) : Bool := c == '|' || c == '-' || c == ':'

def alignment? (t : Text) : Option Alignment :=
  let left := t.head? == some ':'
  let inner := if left then t.drop 1 else t
  let hyphens := inner.takeWhile (· == '-')
  match hyphens, inner.drop hyphens.length with
  | [], _ => none
  | _, [] => some (if left then .left else .none)
  | _, [':'] => some (if left then .center else .right)
  | _, _ => none

/-- The alignments of a row of columns. Nothing may be in front of the first bar or behind the last one. -/
def alignments? (t : Text) : Option (List Alignment) :=
  let parts := (Text.splitAt '|' t).map (Text.trim isWhite)
  let parts := if parts.head? = some [] then parts.drop 1 else parts
  let parts := if parts.getLast? = some [] then parts.dropLast else parts
  parts.mapM alignment?

/-- Whether a line can be the second one of a table. A hyphen and a blank would begin a list. -/
def isColumnLine (ctx : Context) (l : Line) : Bool :=
  ctx.indent ≤ l.indent && !isCode ctx l &&
    match l.content with
    | a :: b :: t => isColumnChar a && (isColumnChar b || isIndent b) && !(a == '-' && isIndent b)
        && t.all fun c => isColumnChar c || isIndent c
    | _ => false

/-- The columns of the table that begins with a line. -/
def tableStart? (ctx : Context) (l : Line) (rest : List Line) : Option (List (Alignment × Text)) := do
  let next :: _ := rest | none
  if !isColumnLine ctx next || isCode ctx l || !l.content.contains '|' then none
  let aligned ← alignments? next.content
  let heads := rowCells l
  if heads.isEmpty || heads.length ≠ aligned.length then none
  return aligned.zip (heads.map (Text.trim isWhite))

/-- What a line would be added to. -/
inductive Within where
  | paragraph | definition | quote | list
  deriving DecidableEq

/-- Whether the first line begins a block of its own although no empty line is in front of it. -/
def interrupts (ctx : Context) (w : Within) : List Line → Bool
  | [] => false
  | l :: rest =>
    ((w = .paragraph ∨ w = .definition) && (tableStart? ctx l rest).isSome)
      || (fenceStart? ctx l).isSome || (!isCode ctx l && l.isQuoted) || isRule ctx l
      || (w ≠ .list && ((listStart? ctx (w = .paragraph) l).isSome
        || (htmlStart? ctx l).any (·.interrupts) || (heading? ctx l).isSome))

/-- Whether a line goes on with what is above it, whatever it looks like. -/
def continues (ctx : Context) (l : Line) : Bool := 3 < l.indent - ctx.indent || l.indent < 0

/-- The lines that belong to a paragraph or a definition above them, and the others. -/
def continuation (ctx : Context) (w : Within) : List Line → List Line × List Line
  | [] => ([], [])
  | l :: ls =>
    if l.isEmpty || (!continues ctx l && interrupts ctx w (l :: ls)) then ([], l :: ls)
    else
      let (more, rest) := continuation ctx w ls
      (l :: more, rest)

/-- The level of the heading that a line makes of the lines above it. -/
def underline? (ctx : Context) (l : Line) : Option Nat :=
  match l.content with
  | c :: t =>
    if ctx.indent ≤ l.indent && (c == '=' || c == '-') && (t.dropWhile (· == c)).all isIndent then
      some (if c = '=' then 1 else 2)
    else none
  | [] => none

/-- The further lines of a heading up to the one that underlines it, with its level and what follows. -/
def underlined? (ctx : Context) : List Line → Option (List Line × Nat × List Line)
  | [] => none
  | l :: ls =>
    let more := (underlined? ctx ls).map fun (body, level, rest) => (l :: body, level, rest)
    if l.isEmpty then none
    else if 3 < l.indent - ctx.indent then more
    else match underline? ctx l with
      | some level => some ([], level, ls)
      | none => if 0 ≤ l.indent && interrupts ctx .paragraph (l :: ls) then none else more

/-- The lines of a block of HTML behind the first, and what follows. Empty lines may be indented too little. -/
def htmlBody (ctx : Context) (ends : HtmlTag.BlockEnd) : List Line → List Line × List Line
  | [] => ([], [])
  | l :: ls =>
    let more : List Line × List Line :=
      let (body, rest) := htmlBody ctx ends ls
      (l :: body, rest)
    if !l.isEmpty && l.indent < ctx.indent then ([], l :: ls)
    else match ends with
      | .emptyLine => if l.content.isEmpty then ([], l :: ls) else more
      | .mark found => if found l.content then ([l], ls) else more

/-- The lines of a block of HTML, and what follows. -/
def htmlLines (ctx : Context) (ends : HtmlTag.BlockEnd) (l : Line) (ls : List Line) :
    List Line × List Line :=
  let done := match ends with
    | .emptyLine => false
    | .mark found => found l.content
  if done then ([l], ls)
  else
    let (body, rest) := htmlBody ctx ends ls
    (l :: body, rest)

/-- The lines of indented code behind the first, without empty ones at the end, and what follows. -/
def codeBody (ctx : Context) : List Line → List Line × List Line
  | [] => ([], [])
  | l :: ls =>
    let (body, rest) := codeBody ctx ls
    if l.isEmpty then (if body.isEmpty then ([], l :: ls) else (l :: body, rest))
    else if isCode ctx l then (l :: body, rest)
    else ([], l :: ls)

/-- How many cells may be missing in the rows of a table. -/
def maxMissingCells : Int := 0x10000

/-- The rows of a table, filled up or cut to the number of its columns, and what follows. `missing` counts the
cells that the rows so far fell short; those that were cut off make up for them. -/
def tableRows (ctx : Context) (columns : Nat) : (missing : Int) → List Line → List (List Text) × List Line
  | _, [] => ([], [])
  | missing, l :: ls =>
    let cs := (rowCells l).map (Text.trim isWhite)
    let missing := missing + columns - cs.length
    if l.indent < ctx.indent || interrupts ctx .quote (l :: ls) || l.content.all isWhite || isCode ctx l
        || maxMissingCells < missing then ([], l :: ls)
    else
      let (rows, rest) := tableRows ctx columns missing ls
      ((cs ++ List.replicate (columns - cs.length) []).take columns :: rows, rest)

/-- The lines of a quote behind its first as they look from inside. A line without the mark goes on with a
paragraph, unless the last line was empty or the line begins a block of its own. -/
def quoteBody (ctx : Context) (lastEmpty : Bool) : List Line → List Line
  | [] => []
  | l :: ls =>
    if l.isEmpty then []
    else if l.isQuoted && ctx.indent ≤ l.indent then
      l.unquote :: quoteBody ctx l.unquote.isEmpty ls
    else if lastEmpty || interrupts ctx .quote (l :: ls) then []
    else { l with indent := -1 } :: quoteBody ctx lastEmpty ls

/-- The definition at the front of some lines: how many lines it takes, its label and its target. -/
def definition? (ctx : Context) (l : Line) (ls : List Line) : Option (Nat × Text × Target) := do
  if isCode ctx l || l.content.head? ≠ some '[' then none
  let lines := l :: (continuation ctx .definition ls).1
  let t := lines.flatMap fun l => l.close l.content
  let (label, target, rest) ← Link.definition? t
  return (((t.take (t.length - rest.length)).count '\n') + 1, label, target)

/-- The first line of an item from the end of its marker on, and the column of the item's content. Code may
begin right behind the blank that follows the marker. -/
def itemStart (m : Marker) (l : Line) : Line × Int :=
  let start := l.indent.toNat + m.width
  let (count, col) := Line.skipIndent l.base 0 start (l.content.drop m.width)
  let first := { l with shift := l.shift + m.width + count, indent := col }
  let gap := if first.isEmpty || 4 < col - start then 1 else col - start
  (first, ((start + gap : Nat) : Int))

/-- How deep blocks may be nested. -/
def maxNesting : Nat := 20

/-- Blocks, the lines behind them, and whether no empty line separates two of the blocks. -/
structure Reading where
  blocks : List Block
  rest : List Line
  tight : Bool

/-- The items of a list. -/
structure Items where
  items : List (List Block)
  rest : List Line
  tight : Bool

/-- Whether the last of the lines that were read is empty. -/
def lastReadEmpty (lines rest : List Line) : Bool :=
  ((lines.take (lines.length - rest.length)).getLast?).any Line.isEmpty

/-- The marker of a line that begins the next item of a list with marker `m`. -/
def nextMarker? (ctx : Context) (m : Marker) (next : Line) (more : List Line) : Option Marker :=
  if next.indent < ctx.indent || isCode ctx next || interrupts ctx .list (next :: more) then none
  else (marker? next).filter fun m' => m'.char == m.char && m'.number.isSome == m.number.isSome

mutual

/-- Reads blocks down to the first line that is indented too little. `gap` tells whether an empty line has
been passed. The fuel is more than the lines to read and the levels to enter. -/
def readBlocks : (fuel : Nat) → Context → (gap tight : Bool) → List Line → StateM Targets Reading
  | 0, _, _, tight, _ => return ⟨[], [], tight⟩
  | fuel + 1, ctx, gap, tight, lines => do
    match lines.dropWhile Line.isEmpty with
    | [] => return ⟨[], [], tight⟩
    | l :: ls =>
      if l.indent < ctx.indent then return ⟨[], l :: ls, tight⟩
      if maxNesting ≤ ctx.level then return ⟨[], [], tight⟩
      let (block, rest) ← readBlock fuel ctx l ls
      let tight := !gap
      let gap := gap || lastReadEmpty (l :: ls) rest
      let (gap, rest) := match rest with
        | e :: more => if e.isEmpty then (true, more) else (gap, rest)
        | [] => (gap, rest)
      let r ← readBlocks fuel ctx gap tight rest
      return { r with blocks := block.toList ++ r.blocks }
  termination_by structural fuel => fuel

/-- Reads the block that a line begins, or a definition, which gives none. -/
def readBlock : (fuel : Nat) → Context → Line → List Line → StateM Targets (Option Block × List Line)
  | 0, _, _, ls => return (none, ls)
  | fuel + 1, ctx, l, ls => do
    if let some columns := tableStart? ctx l ls then
      let (rows, rest) := tableRows ctx columns.length 0 (ls.drop 1)
      return (some (.table columns rows), rest)
    if isCode ctx l then
      let (body, rest) := codeBody ctx ls
      let text := Text.join "\n" ((l :: body).map fun l => l.cut (4 + ctx.indent))
      return (some (.code (text ++ ['\n'])), rest)
    if let some (c, run, info) := fenceStart? ctx l then
      let (body, rest) := fenceBody ctx c run ls
      return (some (.fence info (Line.cutAll l.indent body)), rest)
    if l.isQuoted then
      let inside := l.unquote :: quoteBody ctx l.unquote.isEmpty ls
      let r ← readBlocks fuel { ctx with indent := 0, level := ctx.level + 1 } false true inside
      return (some (.quote r.blocks), (l :: ls).drop (inside.length - r.rest.length))
    if isRule ctx l then return (some .rule, ls)
    if let some m := listStart? ctx false l then
      let r ← readItems fuel ctx m false l ls
      return (some (.list m.number r.tight r.items), r.rest)
    if let some (count, label, target) := definition? ctx l ls then
      modify fun ts => if (ts.lookup label).isSome then ts else ts ++ [(label, target)]
      return (none, (l :: ls).drop count)
    if let some start := htmlStart? ctx l then
      let (body, rest) := htmlLines ctx start.ends l ls
      return (some (.html (Line.cutAll ctx.indent body)), rest)
    if let some (level, text) := heading? ctx l then return (some (.heading level text), ls)
    if let some (body, level, rest) := underlined? ctx ls then
      return (some (.heading level (Line.joined ctx.indent (l :: body))), rest)
    let (body, rest) := continuation ctx .paragraph ls
    return (some (.paragraph (Line.joined ctx.indent (l :: body))), rest)
  termination_by structural fuel => fuel

/-- Reads the items of a list from one that begins with the given marker and line. `gap` tells whether the
item before it ends with an empty line. -/
def readItems : (fuel : Nat) → Context → Marker → (gap : Bool) → Line → List Line → StateM Targets Items
  | 0, _, _, _, _, ls => return ⟨[], ls, true⟩
  | fuel + 1, ctx, m, gap, l, ls => do
    let (first, indent) := itemStart m l
    let r ← if first.isEmpty && ls.head?.all Line.isEmpty then pure ⟨[], ls.drop 1, true⟩
      else readBlocks fuel ⟨indent, ctx.indent, ctx.level + 2⟩ false true (first :: ls)
    let tight := r.tight && !gap
    let gap := r.rest.length < ls.length && lastReadEmpty ls r.rest
    match r.rest with
    | next :: more =>
      match nextMarker? ctx m next more with
      | some m' =>
        let is ← readItems fuel ctx m' gap next more
        return ⟨r.blocks :: is.items, is.rest, tight && is.tight⟩
      | none => return ⟨[r.blocks], next :: more, tight⟩
    | [] => return ⟨[r.blocks], [], tight⟩
  termination_by structural fuel => fuel

end

/-- The blocks of a text and the targets of its definitions. -/
def parse (t : Text) : List Block × Targets :=
  let lines := Line.ofParts (Text.lines t)
  let fuel := 2 * lines.length + 4 * (maxNesting + 2)
  let (r, targets) := (readBlocks fuel ⟨0, -1, 0⟩ false true lines).run []
  (r.blocks, targets)

end Block

end DocPages.Markdown
