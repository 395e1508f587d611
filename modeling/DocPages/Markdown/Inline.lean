import Std.Data.HashMap
import DocPages.Html.Basic
import DocPages.Markdown.Delimiter
import DocPages.Markdown.HtmlTag
import DocPages.Markdown.Link

/-!
# Running text

The text of a paragraph is read into pieces. Code, HTML, escapes and addresses in brackets are complete as
soon as they are read; links and images need the bracket that closes their text, for which everything in
between is skipped construct by construct; delimiters are matched once the whole text is read.
-/

namespace DocPages.Markdown

/-- The elements that delimiters stand for. -/
inductive Emphasis where
  | light | strong | deletion
  deriving DecidableEq

inductive Inline where
  | text (t : Text)
  /-- A character that was escaped or referred to. -/
  | literal (t : Text)
  | lineBreak
  | code (t : Text)
  | html (t : Text)
  /-- An image with the pieces of the text that takes its place. -/
  | image (target : Target) (inside : List Inline)
  | linkStart (target : Target)
  | linkEnd
  | start (e : Emphasis)
  | stop (e : Emphasis)

namespace Inline

mutual

/-- A piece without its markup. A character that was escaped or referred to is lost in an image inside another
one, where `nested` holds. -/
def plain (nested : Bool) : Inline → Text
  | text t => t
  | literal t => if nested then [] else t
  | lineBreak => ['\n']
  | code t => t
  | html t => t
  | image _ inside => altOf true inside
  | linkStart _ | linkEnd | start _ | stop _ => []
  termination_by structural p => p

/-- What takes the place of an image: its pieces without their markup. -/
def altOf (nested : Bool) : List Inline → Text
  | [] => []
  | p :: ps => plain nested p ++ altOf nested ps
  termination_by structural ps => ps

end

end Inline

namespace Scan

/-- How deep constructs may be nested. -/
def maxNesting : Nat := 20

/-- A construct that does not depend on brackets or delimiters. -/
inductive Leaf where
  | run (t : Text)
  | newline
  | pieces (ps : List Inline)

def isSpecial (c : Char) : Bool :=
  c == '\n' || c == '!' || c == '&' || c == '*' || c == '<' || c == '[' || c == '\\' || c == ']'
    || c == '_' || c == '\x60' || c == '~'

/-- Code up to a run of `n` backticks, of which the first `skip` characters are known to be none. -/
def codeEnd? (n : Nat) : (skip : Nat) → Text → Option (Text × Text)
  | _, [] => none
  | skip + 1, c :: t => (codeEnd? n skip t).map fun (code, rest) => (c :: code, rest)
  | 0, c :: t =>
    let more := if c = '\x60' then (t.takeWhile (· == '\x60')).length else 0
    if c = '\x60' ∧ more + 1 = n then some ([], t.drop more)
    else (codeEnd? n more t).map fun (code, rest) => (c :: code, rest)

/-- The content of a code span: line breaks are spaces, and one space at both ends is dropped. -/
def codeContent (t : Text) : Text :=
  let t := t.map fun c => if c = '\n' then ' ' else c
  if t.head? = some ' ' ∧ t.getLast? = some ' ' ∧ t.any (· != ' ') then (t.drop 1).dropLast else t

def isEmailChar (c : Char) : Bool := c.isAlphanum || ".!#$%&'*+/=?^_\x60\x7b|\x7d~-".toList.contains c

def isDomainLabel (t : Text) : Bool :=
  t.all (fun c => c.isAlphanum || c == '-') && t.length ≤ 63 && t.head?.any Char.isAlphanum
    && t.getLast?.any Char.isAlphanum

def isEmail (t : Text) : Bool :=
  match t.span (· != '@') with
  | (user, _ :: domain) =>
    !user.isEmpty && user.all isEmailChar && (Text.splitAt '.' domain).all isDomainLabel
  | _ => false

def isSchemeChar (c : Char) : Bool := c.isAlphanum || c == '+' || c == '.' || c == '-'

/-- Whether a text is an address with a scheme. -/
def isAbsolute (t : Text) : Bool :=
  match t.span isSchemeChar with
  | (c :: scheme, ':' :: rest) => c.isAlpha && 1 ≤ scheme.length && scheme.length ≤ 31
      && rest.all fun c => 0x20 < c.toNat && c != '<' && c != '>'
  | _ => false

/-- An address between brackets. A line break in front of the closing bracket does not matter. -/
def autolink? (t : Text) : Option (List Inline × Text) := do
  let '<' :: t := t | none
  let url := t.takeWhile fun c => c != '<' && c != '>'
  let '>' :: rest := t.drop url.length | none
  let line := if url.getLast? = some '\n' then url.dropLast else url
  let href ← if isAbsolute line then some (Url.normalize url)
    else if isEmail line then some (Url.normalize ("mailto:" ++ url)) else none
  if Url.isSafe href then
    return ([.linkStart ⟨href, []⟩, .text (Url.shown url), .linkEnd], rest)
  else none

def html? (t : Text) : Option (List Inline × Text) :=
  (HtmlTag.any? t).map fun rest => ([.html (t.take (t.length - rest.length))], rest)

/-- A construct at the front of a text that does not depend on brackets or delimiters. -/
def leaf? : Text → Option (Leaf × Text)
  | [] => none
  | '\n' :: t => some (.newline, t.dropWhile isIndent)
  | '\\' :: '\n' :: t => some (.pieces [.lineBreak], t.dropWhile isIndent)
  | '\\' :: c :: t =>
    some (.pieces [.literal (if isPlainPunctuation c then [c] else ['\\', c])], t)
  | '\x60' :: t =>
    let marks := '\x60' :: t.takeWhile (· == '\x60')
    let rest := t.dropWhile (· == '\x60')
    match codeEnd? marks.length 0 rest with
    | some (code, rest) => some (.pieces [.code (codeContent code)], rest)
    | none => some (.run marks, rest)
  | '<' :: t => ((autolink? ('<' :: t)).or (html? ('<' :: t))).map fun (ps, rest) => (.pieces ps, rest)
  | '&' :: t => (reference? ('&' :: t)).map fun (s, rest) => (.pieces [.literal s], rest)
  | c :: t =>
    if isSpecial c then none
    else some (.run (c :: t.takeWhile (!isSpecial ·)), t.dropWhile (!isSpecial ·))

/-- Where the construct at each place ends, as far as it is known. -/
abbrev Known := Std.HashMap Nat Nat

/-- Finds the end of the construct at a place. -/
abbrev Skip := Nat → Text → StateM Known Nat

/-- The place of the bracket that closes `depth` open ones. Constructs are skipped as a whole; where links do
not nest, one in between means that there is none. -/
def closing? (skip : Skip) (nests : Bool) :
    (fuel depth place : Nat) → Text → StateM Known (Option Nat)
  | 0, _, _, _ => return none
  | _, _, _, [] => return none
  | fuel + 1, depth, place, c :: t => do
    if c = ']' ∧ depth = 1 then return some place
    let depth := if c = ']' then depth - 1 else depth
    let next ← skip place (c :: t)
    let rest := t.drop (next - place - 1)
    if c ≠ '[' then closing? skip nests fuel depth next rest
    else if next = place + 1 then closing? skip nests fuel (depth + 1) next rest
    else if nests then closing? skip nests fuel depth next rest
    else return none

/-- A link or an image behind its opening bracket. -/
structure Bracketed where
  inside : Text
  target : Target
  rest : Text

/-- A reference to a definition, by a label of its own at `rest` or by the text inside the brackets. -/
def referred? (skip : Skip) (targets : Targets) (place : Nat) (t inside rest behind : Text) :
    StateM Known (Option Bracketed) := do
  if targets.isEmpty then return none
  let (label, after) ← match rest with
    | '[' :: t' => do
      let first := place + (t.length - t'.length)
      match ← closing? skip true t'.length 1 first t' with
      | some last => pure (t'.take (last - first), t'.drop (last - first + 1))
      | none => pure ([], behind)
    | _ => pure ([], behind)
  let label := if label.isEmpty then inside else label
  return (targets.lookup (Link.normalizeLabel label)).map fun target => ⟨inside, target, after⟩

/-- The link or the image whose text begins at a place. What stands in parentheses comes first; a link may
fall back to a reference, an image may not. -/
def bracketed? (skip : Skip) (targets : Targets) (isImage : Bool) (place : Nat) (t : Text) :
    StateM Known (Option Bracketed) := do
  match ← closing? skip isImage t.length 1 place t with
  | none => return none
  | some last =>
    let inside := t.take (last - place)
    let behind := t.drop (last - place + 1)
    match behind with
    | '(' :: t' => match Link.readInline t' with
      | .target target rest => return some ⟨inside, target, rest⟩
      | .nothing => return none
      | .other rest =>
        if isImage then return none else referred? skip targets place t inside rest behind
    | _ => referred? skip targets place t inside behind behind

/-- The end of the construct at a place, with as many levels of brackets as are left. Beyond the last level
the rest of the text is skipped. -/
def skipWithin (targets : Targets) : (levels : Nat) → Skip
  | levels, place, t => do
    match (← get)[place]? with
    | some next => return next
    | none =>
      let next ← match levels with
        | 0 => pure (place + t.length + 1)
        | levels + 1 =>
          let ended (rest : Text) : Nat := place + (t.length - rest.length)
          match leaf? t with
          | some (_, rest) => pure (ended rest)
          | none =>
            let found ← match t with
              | '[' :: t' => bracketed? (skipWithin targets levels) targets false (place + 1) t'
              | '!' :: '[' :: t' => bracketed? (skipWithin targets levels) targets true (place + 2) t'
              | _ => pure none
            pure ((found.map fun b => ended b.rest).getD (place + 1))
      modify (·.insert place next)
      return next

/-- The pieces read so far, the last one first, and the plain text behind them, the last character first. -/
structure Progress where
  pieces : List Inline
  count : Nat
  delimiters : List Delimiter
  pending : Text

namespace Progress

def empty : Progress := ⟨[], 0, [], []⟩

def flush (p : Progress) : Progress :=
  if p.pending.isEmpty then p
  else { p with pieces := .text p.pending.reverse :: p.pieces, count := p.count + 1, pending := [] }

def push (p : Progress) (piece : Inline) : Progress :=
  let p := p.flush
  { p with pieces := piece :: p.pieces, count := p.count + 1 }

def pushAll (p : Progress) (ps : List Inline) : Progress := ps.foldl push p

def pushText (p : Progress) (t : Text) : Progress := { p with pending := t.reverse ++ p.pending }

/-- A mark that may be matched later. -/
def pushDelimiter (p : Progress) (mark : Text) (d : Delimiter) : Progress :=
  let p := p.push (.text mark)
  { p with delimiters := { d with place := p.count - 1 } :: p.delimiters }

/-- A line break with the spaces in front of it: one of them, or all if there are two or more. -/
def pushBreak (p : Progress) : Progress :=
  push { p with pending := match p.pending with
    | ' ' :: ' ' :: t => t.dropWhile (· == ' ')
    | ' ' :: t => t
    | t => t } .lineBreak

/-- A run of asterisks or underscores, each of them a delimiter. -/
def pushRun (p : Progress) (mark : Char) (run : Nat) (flanks : Bool × Bool) : Progress :=
  (List.range run).foldl (fun p _ => p.pushDelimiter [mark] ⟨mark, run, flanks.1, flanks.2, 0, none⟩) p

/-- A run of tildes, each two of them a delimiter; the odd one in front stands for itself. -/
def pushTildes (p : Progress) (run : Nat) (flanks : Bool × Bool) : Progress :=
  let p := if run % 2 = 1 then p.push (.text ['~']) else p
  (List.range (run / 2)).foldl
    (fun p _ => p.pushDelimiter ['~', '~'] ⟨'~', 0, flanks.1, flanks.2, 0, none⟩) p

end Progress

def isLoneTilde : Inline → Bool
  | .text t => t == ['~']
  | _ => false

def isDeletionStop : Inline → Bool
  | .stop .deletion => true
  | _ => false

/-- Moves a lone tilde behind the ends of deletions that follow it. -/
def moveTilde (ps : Array Inline) (i : Nat) : Array Inline :=
  let ends := ((ps.toList.drop (i + 1)).takeWhile isDeletionStop).length
  match ps[i]?, ps[i + ends]? with
  | some a, some b => (ps.set! i b).set! (i + ends) a
  | _, _ => ps

/-- Puts deletions in place of matched tildes. An odd tilde in front of a closing run belongs behind it. -/
def placeDeletions (ds : Array Delimiter) (ps : Array Inline) : Array Inline :=
  let (ps, lone) := ds.foldl (fun (ps, lone) d =>
    match if d.mark = '~' then d.closer.bind (ds[·]?) else none with
    | some closer =>
      let ps := (ps.set! d.place (.start .deletion)).set! closer.place (.stop .deletion)
      (ps, if 0 < closer.place && (ps[closer.place - 1]?).any isLoneTilde then
          (closer.place - 1) :: lone else lone)
    | none => (ps, lone)) (ps, [])
  lone.foldl moveTilde ps

/-- Whether a delimiter and the one in front of it, with the two that close them, make a strong emphasis. -/
def isStrong (ds : Array Delimiter) (outer inner : Delimiter) : Bool :=
  match inner.closer with
  | none => false
  | some n => outer.closer == some (n + 1) && outer.mark == inner.mark && outer.place + 1 == inner.place
    && (match ds[n]?, ds[n + 1]? with
      | some c, some c' => c'.place == c.place + 1
      | _, _ => false)

/-- Puts an emphasis in place of a matched delimiter. -/
def placeEmphasis (ds : Array Delimiter) (e : Emphasis) (d : Delimiter) (ps : Array Inline) :
    Array Inline :=
  match d.closer.bind (ds[·]?) with
  | some closer => (ps.set! d.place (.start e)).set! closer.place (.stop e)
  | none => ps

/-- Empties the places of a delimiter and of the one that closes it. -/
def clear (ds : Array Delimiter) (d : Delimiter) (ps : Array Inline) : Array Inline :=
  match d.closer.bind (ds[·]?) with
  | some closer => (ps.set! d.place (.text [])).set! closer.place (.text [])
  | none => ps

/-- Puts emphases in place of the first `n` delimiters, from the last to the first. -/
def placeEmphases (ds : Array Delimiter) : (n : Nat) → Array Inline → Array Inline
  | 0, ps => ps
  | 1, ps => match ds[0]? with
    | some d => if d.mark = '~' then ps else placeEmphasis ds .light d ps
    | none => ps
  | n + 2, ps => match ds[n]?, ds[n + 1]? with
    | some outer, some d =>
      if d.mark = '~' ∨ d.closer.isNone then placeEmphases ds (n + 1) ps
      else if isStrong ds outer d then
        placeEmphases ds n (clear ds outer (placeEmphasis ds .strong d ps))
      else placeEmphases ds (n + 1) (placeEmphasis ds .light d ps)
    | _, _ => ps

/-- The pieces of a text that has been read, with delimiters matched. -/
def Progress.finish (p : Progress) : List Inline :=
  let p := p.flush
  let ds := Delimiter.matchAll p.delimiters.reverse
  (placeEmphases ds ds.size (placeDeletions ds p.pieces.reverse.toArray)).toList

/-- The last of the characters that were read, given what is left of them. -/
def lastRead (before : Char) (t rest : Text) : Char :=
  ((t.take (t.length - rest.length)).getLast?).getD before

mutual

/-- Reads a text whose first character is at the given place, `level` links deep; the fuel is the length of
the text that is read in all. -/
def readPieces (targets : Targets) : (fuel level : Nat) → (before : Char) → (place : Nat) → Text →
    Progress → StateM Known Progress
  | 0, _, _, _, _, p => return p
  | _, _, _, _, [], p => return p
  | fuel + 1, level, before, place, c :: t, p => do
    let skip := skipWithin targets (maxNesting - level)
    let go (rest : Text) (p : Progress) : StateM Known Progress :=
      readPieces targets fuel level (lastRead before (c :: t) rest)
        (place + (t.length + 1 - rest.length)) rest p
    match leaf? (c :: t) with
    | some (.run s, rest) => go rest (p.pushText s)
    | some (.newline, rest) => go rest p.pushBreak
    | some (.pieces ps, rest) => go rest (p.pushAll ps)
    | none =>
      let run := 1 + (t.takeWhile (· == c)).length
      let rest := t.drop (run - 1)
      let flanks := flanking (c != '_') before (rest.headD ' ')
      if c = '*' ∨ c = '_' then go rest (p.pushRun c run flanks)
      else if c = '~' ∧ 2 ≤ run then go rest (p.pushTildes run flanks)
      else if c = '[' then
        match ← bracketed? skip targets false (place + 1) t with
        | some b =>
          let inner ← readPieces targets fuel (level + 1) c (place + 1) b.inside .empty
          go b.rest (((p.push (.linkStart b.target)).pushAll inner.finish).push .linkEnd)
        | none => go t (p.pushText [c])
      else match c, t with
        | '!', '[' :: t' =>
          match ← bracketed? skip targets true (place + 2) t' with
          | some b => go b.rest (p.push (.image b.target (readText targets fuel b.inside)))
          | none => go t (p.pushText [c])
        | _, _ => go t (p.pushText [c])
  termination_by structural fuel => fuel

/-- The pieces of a text by itself. -/
def readText (targets : Targets) : (fuel : Nat) → Text → List Inline
  | 0, _ => []
  | fuel + 1, t => ((readPieces targets fuel 0 ' ' 0 t .empty).run' {}).finish
  termination_by structural fuel => fuel

end

end Scan

/-- The pieces of the text of a paragraph. -/
def Inline.parse (targets : Targets) (t : Text) : List Inline :=
  Scan.readText targets (t.length + 2) t

end DocPages.Markdown
