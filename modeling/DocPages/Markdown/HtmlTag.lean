import DocPages.Text.Class

/-!
# HTML in Markdown

The forms of raw HTML that the engine passes on: tags, comments, processing instructions, declarations and
sections of character data. A reader answers with what follows the form.
-/

namespace DocPages.Markdown.HtmlTag

abbrev Form := Text → Option Text

def isNameStart (c : Char) : Bool := c.isAlpha

def isNameChar (c : Char) : Bool := c.isAlphanum || c == '-'

/-- What follows the name of a tag. -/
def name? : Form
  | c :: t => if isNameStart c then some (t.dropWhile isNameChar) else none
  | [] => none

def isAttributeStart (c : Char) : Bool := c.isAlpha || c == '_' || c == ':'

def isAttributeChar (c : Char) : Bool := c.isAlphanum || c == ':' || c == '.' || c == '_' || c == '-'

/-- A character of a value without quotes. -/
def isBareChar (c : Char) : Bool :=
  !(c == '"' || c == '\'' || c == '=' || c == '<' || c == '>' || c == '\x60' || c.toNat ≤ 0x20)

/-- What follows a value without quotes and the blanks in front of it. Blanks beyond ASCII can be part of the
value. In front of an equals sign, though, the last word is the name of the next attribute, and one blank at
least has to set it off from the value. -/
def bareValue? : Form := fun t =>
  let gap := t.takeWhile isBlank
  let stretch := gap ++ (t.drop gap.length).takeWhile isBareChar
  let rest := t.drop stretch.length
  if (Text.dropBlanks rest).head? == some '=' then
    let words := Text.trimEnd isBlank stretch
    let value := Text.trimEnd isAttributeChar words
    if value.getLast?.any isBlank && value.dropLast.any isBareChar
        && (words.drop value.length).head?.any isAttributeStart then
      some (t.drop (value.length - 1))
    else none
  else if stretch.any isBareChar then some rest
  else none

/-- What follows a value and the blanks in front of it. -/
def value? : Form := fun t =>
  match Text.dropBlanks t with
  | '"' :: t => (Text.cut? ['"'] t).map Prod.snd
  | '\'' :: t => (Text.cut? ['\''] t).map Prod.snd
  | _ => bareValue? t

/-- A value behind its sign, if there is one. -/
def optionalValue (t : Text) : Text :=
  match Text.dropBlanks t with
  | '=' :: rest => (value? rest).getD t
  | _ => t

/-- An attribute with the blanks in front of it. -/
def attribute? (t : Text) : Option Text :=
  match Text.dropBlanks t with
  | c :: rest =>
    if rest.length + 1 < t.length && isAttributeStart c then
      some (optionalValue (rest.dropWhile isAttributeChar))
    else none
  | [] => none

/-- What follows all attributes; the fuel is the length of the text. -/
def afterAttributes : (fuel : Nat) → Text → Text
  | 0, t => t
  | fuel + 1, t => match attribute? t with
    | some rest => afterAttributes fuel rest
    | none => t

def openTag? : Form := fun t => do
  let t ← name? (← Text.after? "<" t)
  let t := Text.dropBlanks (afterAttributes t.length t)
  (Text.after? "/>" t).or (Text.after? ">" t)

def closeTag? : Form := fun t => do
  let t ← name? (← Text.after? "</" t)
  Text.after? ">" (Text.dropBlanks t)

/-- The rest of a comment: two hyphens end it only if a bracket follows, and otherwise take the next
character along. -/
def commentRest? : Form
  | '-' :: '-' :: '>' :: t => some t
  | '-' :: '-' :: _ :: t => commentRest? t
  | '-' :: c :: t => if c = '-' then none else commentRest? t
  | ['-'] => none
  | _ :: t => commentRest? t
  | [] => none

def comment? : Form := fun t =>
  ((Text.after? "<!-->" t).or (Text.after? "<!--->" t)).or
    ((Text.after? "<!--" t).bind commentRest?)

def instruction? : Form := fun t => do
  return (← Text.cut? "?>" (← Text.after? "<?" t)).2

def declaration? : Form := fun t => do
  let c :: t ← Text.after? "<!" t | none
  if c.isAlpha then return (← Text.cut? ">" t).2 else none

def characterData? : Form := fun t => do
  return (← Text.cut? "]]>" (← Text.after? "<![CDATA[" t)).2

/-- Any form of raw HTML. -/
def any? : Form := fun t =>
  [openTag?, closeTag?, comment?, instruction?, declaration?, characterData?].findSome? fun form => form t

/-- What follows one of the names, regardless of case, if the rest agrees. -/
def afterName? (names : List Text) (agrees : Text → Bool) (t : Text) : Option Text :=
  names.findSome? fun name =>
    if (t.take name.length).map Char.toLower == name && agrees (t.drop name.length) then
      some (t.drop name.length)
    else none

/-- The elements whose content is not looked at. -/
def rawNames : List Text := ["script", "pre", "style", "textarea"]

def blockNames : List Text :=
  Text.splitAt ' ' ("address article aside base basefont blockquote body caption center col colgroup " ++
    "dd details dialog dir div dl dt fieldset figcaption figure footer form frame frameset h1 h2 h3 h4 " ++
    "h5 h6 head header hr html iframe legend li link main menu menuitem nav noframes ol optgroup option " ++
    "p param search section summary table tbody td tfoot th thead title tr track ul")

/-- What ends a block of HTML: a line with a mark in it, or an empty line. -/
inductive BlockEnd where
  | mark (found : Text → Bool)
  | emptyLine

/-- A way in which a block of HTML begins: how it ends, and whether it may follow a paragraph without an
empty line. -/
structure BlockStart where
  ends : BlockEnd
  interrupts : Bool

def hasRawEnd : Text → Bool
  | [] => false
  | c :: t => (do
      let t ← Text.after? "</" (c :: t)
      afterName? rawNames (·.head? == some '>') t).isSome || hasRawEnd t

def endsWith (mark : Text) : BlockEnd := .mark fun t => t.includes mark

/-- Whether the name of an element is over; beyond ASCII there is no blank that ends it. -/
def isTagEnd (t : Text) : Bool :=
  match t with
  | [] => true
  | c :: _ => c == '>' || c == ' ' || (0x9 ≤ c.toNat && c.toNat ≤ 0xd)

/-- The block of HTML that a line begins, if it does. -/
def blockStart? (line : Text) : Option BlockStart :=
  let begins (start : Text) : Bool := Text.startsWith line start
  if (do afterName? rawNames isTagEnd (← Text.after? "<" line)).isSome then
    some ⟨.mark hasRawEnd, true⟩
  else if begins "<!--" then some ⟨endsWith "-->", true⟩
  else if begins "<?" then some ⟨endsWith "?>", true⟩
  else if ((Text.after? "<!" line).bind List.head?).any Char.isAlpha then some ⟨endsWith ">", true⟩
  else if begins "<![CDATA[" then some ⟨endsWith "]]>", true⟩
  else if (do
      let t ← (Text.after? "</" line).or (Text.after? "<" line)
      afterName? blockNames (fun t => isTagEnd t || Text.startsWith t "/>") t).isSome then
    some ⟨.emptyLine, true⟩
  else if ((openTag? line).or (closeTag? line)).any Text.isBlank then some ⟨.emptyLine, false⟩
  else none

end DocPages.Markdown.HtmlTag
