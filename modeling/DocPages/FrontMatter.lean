import DocPages.Keyed
import DocPages.Text.Class
import DocPages.Text.Pieces

/-!
# Front matter

A document may open with a block between two lines of three hyphens. The block holds entries `key: value`
at the left margin; a value is a line of text, a list of items below its key, or several lines that are
folded (`>`) or kept (`|`). Lines of any other shape are passed over.
-/

namespace DocPages

namespace FrontMatter

inductive Value where
  | text (t : Text)
  | items (ts : List Text)
  deriving DecidableEq

end FrontMatter

/-- Entries with distinct keys, in order. -/
abbrev FrontMatter := Keyed FrontMatter.Value

namespace FrontMatter

/-- A line break of either style. -/
def newline? : Text → Option Text
  | '\n' :: t => some t
  | '\r' :: '\n' :: t => some t
  | _ => none

/-- The rest of a line of three hyphens. -/
def fence? (t : Text) : Option Text := (Text.after? "---" t).map fun t => t.dropWhile isIndent

/-- What follows the closing line, with the line break in front of it. -/
def closing? (t : Text) : Option Text := do
  let rest ← fence? (← newline? t)
  if rest.isEmpty then some [] else newline? rest

/-- The block up to its closing line and the text behind it. -/
def splitBlock : Text → Option (Text × Text)
  | [] => none
  | c :: t => match closing? (c :: t) with
    | some rest => some ([], rest)
    | none => (splitBlock t).map fun (block, rest) => (c :: block, rest)

/-- The front-matter block of a document and its body, if it has a complete block. -/
def splitDocument? (t : Text) : Option (Text × Text) := do
  splitBlock (← newline? (← fence? t))

def unquote (t : Text) : Text :=
  match t with
  | q :: r => if (q = '"' ∨ q = '\'') ∧ r.getLast? = some q then r.dropLast else t
  | [] => t

/-- The indicators of values that span several lines. -/
inductive Scalar where
  | folded (chomp : Bool)
  | kept (chomp : Bool)

def Scalar.ofText? (t : Text) : Option Scalar :=
  if t = ">" then some (.folded false)
  else if t = ">-" then some (.folded true)
  else if t = "|" then some (.kept false)
  else if t = "|-" then some (.kept true)
  else none

/-- Lines between blank ones are folded into one; each such paragraph becomes a line. -/
def fold (lines : List Text) : Text :=
  Text.join "\n" (((splitWhere List.isEmpty lines).filter (!·.isEmpty)).map (Text.join " "))

/-- The text of a value from its lines, without blank ones at the end. -/
def Scalar.join (s : Scalar) (lines : List Text) : Text :=
  let lines := (lines.reverse.dropWhile List.isEmpty).reverse
  match s with
  | .folded chomp => close chomp (fold lines)
  | .kept chomp => close chomp (Text.join "\n" lines)
where
  close (chomp : Bool) (t : Text) : Text := if chomp || t.isEmpty then t else t ++ "\n"

/-- Whether a line belongs to the value above it. -/
def isContinuation (line : Text) : Bool :=
  (line.head?.any isIndent) || Text.isBlank line

/-- The item of a list line, which is a hyphen and a blank behind any blanks. -/
def item? (line : Text) : Option Text :=
  match Text.dropBlanks line with
  | ['-'] => some []
  | '-' :: c :: t => if isBlank c then some (Text.strip (c :: t)) else none
  | _ => none

/-- Key and value of an entry line, both stripped. -/
def keyValue? (line : Text) : Option (Text × Text) := do
  if line.head?.any fun c => isIndent c || c == '-' || c == '#' then none
  let (key, value) ← Text.cut? ":" line
  let key := Text.strip key
  if key.isEmpty || key.contains ' ' then none else some (key, Text.strip value)

/-- An entry with all the lines of its value. -/
def entry? : Reader Text (Text × Value)
  | [] => none
  | line :: rest => do
    let (key, value) ← keyValue? line
    match Scalar.ofText? value with
    | some scalar =>
      let block := (rest.takeWhile isContinuation).map Text.strip
      return ((key, .text (scalar.join block)), rest.dropWhile isContinuation)
    | none =>
      if value.isEmpty then
        let lines := rest.takeWhile fun line => (item? line).isSome
        let items := (lines.filterMap item?).filter (!·.isEmpty)
        if items.isEmpty then none
        else return ((key, .items (items.map unquote)), rest.drop lines.length)
      else return ((key, .text (unquote value)), rest)

/-- The entries of a block. -/
def parse (block : Text) : FrontMatter :=
  Keyed.ofList (found entry? (Text.lines (Text.replace "\r\n" "\n" block)))

/-- The front matter of a document and its body; a document without a complete block is all body. -/
def split (t : Text) : FrontMatter × Text :=
  match splitDocument? t with
  | some (block, body) => (parse block, body)
  | none => ([], t)

/-- The text of a key, if it has one that is not empty. -/
def text? (fm : FrontMatter) (key : Text) : Option Text :=
  match Keyed.get? fm key with
  | some (.text t) => if t.isEmpty then none else some t
  | _ => none

end FrontMatter

end DocPages
