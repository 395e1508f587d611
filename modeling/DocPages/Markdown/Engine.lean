import DocPages.Heading
import DocPages.Markdown.Block
import DocPages.Markdown.Inline

/-!
# From Markdown to HTML

The engine for what is not a component: paragraphs, lists, tables, code and so on. A line break in a paragraph
is a break on the page. A heading has the slug of its text as its id, and one of the first level is written
as one of the second, as in the outline.
-/

namespace DocPages.Markdown

def escapeChar : Char → Text
  | '&' => "&amp;"
  | '<' => "&lt;"
  | '>' => "&gt;"
  | '"' => "&quot;"
  | c => [c]

/-- The text with markup as entities; single quotes stay, since attributes are in double quotes. -/
def escape (t : Text) : Text := t.flatMap escapeChar

def attr (name value : Text) : Text := ' ' :: name ++ "=\"" ++ escape value ++ "\""

def titleAttribute (target : Target) : Text :=
  if target.title.isEmpty then [] else attr "title" target.title

namespace Emphasis

def tag : Emphasis → Text
  | light => "em"
  | strong => "strong"
  | deletion => "s"

end Emphasis

def tagged (name content : Text) : Text := '<' :: name ++ ">" ++ content ++ "</" ++ name ++ ">"

namespace Inline

def write : Inline → Text
  | text t => escape t
  | literal t => escape t
  | lineBreak => "<br />\n"
  | code t => tagged "code" (escape t)
  | html t => t
  | image target inside =>
    "<img" ++ attr "src" target.href ++ attr "alt" (altOf false inside) ++ titleAttribute target ++ " />"
  | linkStart target => "<a" ++ attr "href" target.href ++ titleAttribute target ++ ">"
  | linkEnd => "</a>"
  | start e => '<' :: e.tag ++ ">"
  | stop e => "</" ++ e.tag ++ ">"

def writeText (targets : Targets) (t : Text) : Text := (parse targets t).flatMap write

end Inline

namespace Block

def alignmentAttribute : Alignment → Text
  | .none => []
  | .left => attr "style" "text-align:left"
  | .center => attr "style" "text-align:center"
  | .right => attr "style" "text-align:right"

def line (name content : Text) : Text := tagged name content ++ "\n"

/-- An element with its content on lines of its own. -/
def lines (name content : Text) : Text := '<' :: name ++ ">\n" ++ content ++ "</" ++ name ++ ">\n"

def cell (name : Text) (inline : Text → Text) (a : Alignment) (t : Text) : Text :=
  '<' :: name ++ alignmentAttribute a ++ ">" ++ inline t ++ "</" ++ name ++ ">\n"

def writeTable (inline : Text → Text) (columns : List (Alignment × Text)) (rows : List (List Text)) :
    Text :=
  let head := lines "tr" (columns.flatMap fun (a, t) => cell "th" inline a t)
  let row (cs : List Text) : Text :=
    lines "tr" ((columns.zip cs).flatMap fun (c, t) => cell "td" inline c.1 t)
  let body : Text := if rows.isEmpty then [] else lines "tbody" (rows.flatMap row)
  lines "table" (lines "thead" head ++ body)

/-- The language of a fenced block is the first word of its info string. -/
def language (info : Text) : Text := (Text.trim isWhite (unescape info)).takeWhile (!isWhite ·)

def writeFence (info t : Text) : Text :=
  let language := language info
  "<pre><code" ++ (if language.isEmpty then [] else attr "class" ("language-" ++ language)) ++ ">"
    ++ escape t ++ "</code></pre>\n"

def writeHeading (inline : Text → Text) (level : Nat) (t : Text) : Text :=
  let name := 'h' :: Text.ofNat (if level = 1 then 2 else level)
  '<' :: name ++ " id=\"" ++ slug t ++ "\">" ++ inline t ++ "</" ++ name ++ ">\n"

/-- Whether a block is set off by a line break from the text of a tight item in front of it. -/
def breaksLine : Block → Bool
  | rule | quote _ | list _ _ _ | table _ _ => true
  | _ => false

def isParagraph : Block → Bool
  | paragraph _ => true
  | _ => false

def listStart (first : Option Nat) : Text :=
  match first with
  | none => "<ul>\n"
  | some n => "<ol" ++ (if n = 1 then [] else attr "start" (Text.ofNat n)) ++ ">\n"

def listEnd (first : Option Nat) : Text := if first.isNone then "</ul>\n" else "</ol>\n"

mutual

/-- A block; `bare` tells whether paragraphs are written without their tags. -/
def write (inline : Text → Text) (bare : Bool) : Block → Text
  | paragraph t => if bare then inline t else line "p" (inline t)
  | heading level t => writeHeading inline level t
  | rule => "<hr />\n"
  | code t => "<pre>" ++ tagged "code" (escape t) ++ "</pre>\n"
  | fence info t => writeFence info t
  | html t => t
  | quote [] => "<blockquote></blockquote>\n"
  | quote (b :: bs) => lines "blockquote" (writeAll inline false false (b :: bs))
  | list first tight items => listStart first ++ writeItems inline tight items ++ listEnd first
  | table columns rows => writeTable inline columns rows
  termination_by structural b => b

/-- Blocks one after the other, where `afterText` tells whether the text of a tight item is in front. -/
def writeAll (inline : Text → Text) (bare afterText : Bool) : List Block → Text
  | [] => []
  | b :: bs => (if afterText && b.breaksLine then ['\n'] else []) ++ write inline bare b
      ++ writeAll inline bare (bare && b.isParagraph) bs
  termination_by structural bs => bs

def writeItems (inline : Text → Text) (tight : Bool) : List (List Block) → Text
  | [] => []
  | [] :: items => "<li></li>\n" ++ writeItems inline tight items
  | (b :: bs) :: items => "<li>" ++ (if tight && b.isParagraph then [] else ['\n'])
      ++ writeAll inline tight false (b :: bs) ++ "</li>\n" ++ writeItems inline tight items
  termination_by structural items => items

end

end Block

/-- The text with one style of line breaks and a replacement for what is no character. -/
def normalizeInput (t : Text) : Text :=
  (Text.unifyBreaks t).map fun c => if c.toNat = 0 then Char.ofNat 0xfffd else c

/-- The HTML of a text. -/
def toHtml (t : Text) : Text :=
  let (blocks, targets) := Block.parse (normalizeInput t)
  Block.writeAll (Inline.writeText targets) false false blocks

end DocPages.Markdown
