import DocPages.Page.Element
import DocPages.Proofs.Text.Numeral
import DocPages.Proofs.Text.Search
import DocPages.Proofs.Text.Trim

/-!
# Block components as they are written

A component that holds other blocks is written as a start line, its content on lines of its own and an end line.
Titles, addresses and paragraphs are phrases: words of lower-case letters with spaces between them. The reader
of a component gives back what it has been written from, if its end line does not occur in its content.
-/

namespace DocPages.Markup

/-- A lower-case letter. Beyond ASCII every character counts as one that is no blank. -/
def isLetter (c : Char) : Bool := isPlainLetter c || (0x80 ≤ c.toNat && !isBlank c)

/-- Words with spaces between them. -/
structure Phrase where
  text : Text
  letters : text.all (fun c => isLetter c || c == ' ') = true
  first : text.head?.any isLetter = true
  last : text.getLast?.any isLetter = true

/-- A value of an attribute: a phrase between quotes, or a number between braces. -/
inductive AttributeValue where
  | quoted (p : Phrase)
  | braced (n : Nat)

def AttributeValue.text : AttributeValue → Text
  | quoted p => p.text
  | braced n => Text.ofNat n

def AttributeValue.write : AttributeValue → Text
  | quoted p => '"' :: (p.text ++ ['"'])
  | braced n => '\x7b' :: (Text.ofNat n ++ ['\x7d'])

structure Attribute where
  name : Text
  value : AttributeValue
  letters : name.all isPlainLetter = true
  ne_nil : name ≠ []

def Attribute.write (a : Attribute) : Text := ' ' :: (a.name ++ '=' :: a.value.write)

/-- What the attributes of a start line say. -/
def entries (as : List Attribute) : Attributes := Keyed.ofList (as.map fun a => (a.name, a.value.text))

/-- The kinds of components that hold blocks. A list of steps and its steps are of one kind. -/
inductive Kind where
  | callout | accordion | steps | cardGroup | card | parameterTable | browserMockup
  deriving DecidableEq

/-- What every construct of the kind begins with. -/
def Kind.startMark : Kind → Text
  | callout => Element.colons
  | accordion => Element.startTag "Accordion"
  | steps => Element.startTag "Steps"
  | cardGroup => Element.startTag "CardGroup"
  | card => Element.startTag "Card"
  | parameterTable => Element.startTag "ParameterTable"
  | browserMockup => Element.startTag "BrowserMockup"

/-- The last line of a component of the kind. -/
def Kind.endLine : Kind → Text
  | callout => Element.colons
  | accordion => Element.endTag "Accordion"
  | steps => Element.endTag "Steps"
  | cardGroup => Element.endTag "CardGroup"
  | card => Element.endTag "Card"
  | parameterTable => Element.endTag "ParameterTable"
  | browserMockup => Element.endTag "BrowserMockup"

/-- The components with attributes. -/
inductive Described where
  | cardGroup | card | browserMockup

namespace Described

def kind : Described → Kind
  | cardGroup => .cardGroup
  | card => .card
  | browserMockup => .browserMockup

def name : Described → Text
  | cardGroup => "CardGroup"
  | card => "Card"
  | browserMockup => "BrowserMockup"

def html : Described → Attributes → Text → Html
  | cardGroup => Element.cardGroup
  | card => Element.card
  | browserMockup => Element.browserMockup

end Described

/-- A component with one region of content. -/
inductive Box where
  | callout (type : Text) (known : type ∈ Element.calloutKinds)
  | accordion (title : Phrase)
  | described (d : Described) (as : List Attribute)
  | parameterTable

/-- A component: its first line, its content on lines of its own and its last line. -/
def wrap (first last content : Text) : Text := first ++ '\n' :: (content ++ '\n' :: last)

/-- The start line of a component with a title. -/
def titleLine (name : Text) (title : Phrase) : Text :=
  Element.startTag name ++ ' ' :: ("title=\"" ++ (title.text ++ ("\"" ++ ['>'])))

namespace Box

def kind : Box → Kind
  | callout _ _ => .callout
  | accordion _ => .accordion
  | described d _ => d.kind
  | parameterTable => .parameterTable

def startLine : Box → Text
  | callout type _ => Element.colons ++ type
  | accordion title => titleLine "Accordion" title
  | described d as => Element.startTag d.name ++ (as.flatMap Attribute.write ++ ['>'])
  | parameterTable => Element.startTag "ParameterTable" ++ ['>']

/-- The template of the component around what its content has become. -/
def html : Box → Text → Html
  | callout type _ => Element.callout type
  | accordion title => Element.accordion title.text
  | described d as => d.html (entries as)
  | parameterTable => Element.parameterTable

def write (b : Box) (content : Text) : Text := wrap b.startLine b.kind.endLine content

end Box

/-! ## Phrases -/

theorem not_isBlank_of_isAlphanum {c : Char} (h : c.isAlphanum = true) : isBlank c = false :=
  Bool.eq_false_iff.2 fun hblank => by simp [isAlphanum_of_isBlank hblank] at h

theorem isAlphanum_of_isPlainLetter {c : Char} (h : isPlainLetter c = true) : c.isAlphanum = true := by
  have hlower : c.isLower = true := h
  have hclasses : (c.isUpper || c.isLower || c.isDigit) = true := by simp [hlower]
  exact hclasses

theorem not_isBlank_of_isLetter {c : Char} (h : isLetter c = true) : isBlank c = false := by
  rcases Bool.or_eq_true_iff.1 h with h | h
  · exact not_isBlank_of_isAlphanum (isAlphanum_of_isPlainLetter h)
  · simpa using (Bool.and_eq_true_iff.1 h).2

theorem isNameChar_of_isPlainLetter {c : Char} (h : isPlainLetter c = true) :
    Attributes.isNameChar c = true := by
  have hrange := toNat_of_isPlainLetter h
  have hascii : c.toNat < 0x80 := by omega
  simp [Attributes.isNameChar, isWord, hascii, isAlphanum_of_isPlainLetter h]

namespace Phrase

variable {p : Phrase} {c : Char}

theorem notMem (h : isLetter c = false) (hs : c ≠ ' ') : c ∉ p.text := by
  intro hc
  simpa [h, hs] using List.all_eq_true.1 p.letters c hc

theorem not_isBlank_head (h : c ∈ p.text.head?) : isBlank c = false := by
  have hfirst := p.first
  rw [Option.mem_def.1 h] at hfirst
  exact not_isBlank_of_isLetter hfirst

theorem not_isBlank_last (h : c ∈ p.text.getLast?) : isBlank c = false := by
  have hlast := p.last
  rw [Option.mem_def.1 h] at hlast
  exact not_isBlank_of_isLetter hlast

end Phrase

/-! ## Attributes -/

theorem AttributeValue.strip_text (v : AttributeValue) : Text.strip v.text = v.text := by
  cases v with
  | quoted p => exact Text.trim_eq_self (fun _ => p.not_isBlank_head) fun _ => p.not_isBlank_last
  | braced n =>
    have hdigit {c : Char} (hc : c ∈ Text.ofNat n) : isBlank c = false :=
      not_isBlank_of_isAlphanum (by simp [Char.isAlphanum, Text.isDigit_of_mem_ofNat hc])
    exact Text.trim_eq_self (fun c hc => hdigit (List.mem_of_head? hc)) fun c hc => hdigit (List.mem_of_getLast? hc)

theorem AttributeValue.value?_write (v : AttributeValue) (t : Text) :
    Attributes.value? (v.write ++ t) = some (v.text, t) := by
  cases v with
  | quoted p =>
    have hquote : '"' ∉ p.text := p.notMem (by decide) (by decide)
    have hcut := Text.cut?_append (@Text.clear_of_notMem [] _ _ hquote (['"'] ++ t))
    simpa [AttributeValue.write, AttributeValue.text, Attributes.value?, Attributes.delimited] using hcut
  | braced n =>
    have hbrace : '\x7d' ∉ Text.ofNat n := fun h => absurd (Text.isDigit_of_mem_ofNat h) (by decide)
    have hcut := Text.cut?_append (@Text.clear_of_notMem [] _ _ hbrace (['\x7d'] ++ t))
    simpa [AttributeValue.write, AttributeValue.text, Attributes.value?, Attributes.delimited] using hcut

theorem Attribute.attribute?_write (a : Attribute) (t : Text) :
    Attributes.attribute? (a.name ++ ('=' :: (a.value.write ++ t))) = some ((a.name, a.value.text), t) := by
  have hname : ∀ c ∈ a.name, Attributes.isNameChar c = true := fun c hc =>
    isNameChar_of_isPlainLetter (List.all_eq_true.1 a.letters c hc)
  have hsign : Attributes.isNameChar '=' = false := by decide
  have htake : (a.name ++ ('=' :: (a.value.write ++ t))).takeWhile Attributes.isNameChar = a.name := by
    rw [List.takeWhile_append_of_pos hname]
    simp [hsign]
  have hdrop : (a.name ++ ('=' :: (a.value.write ++ t))).dropWhile Attributes.isNameChar =
      '=' :: (a.value.write ++ t) := by
    rw [List.dropWhile_append_of_pos hname]
    simp [hsign]
  have hequals : Text.dropBlanks ('=' :: (a.value.write ++ t)) = '=' :: (a.value.write ++ t) :=
    Text.trimStart_eq_self (by simp; decide)
  have hvalue : Text.dropBlanks (a.value.write ++ t) = a.value.write ++ t :=
    Text.trimStart_eq_self (by cases a.value <;> simp [AttributeValue.write] <;> decide)
  simp [Attributes.attribute?, htake, hdrop, hequals, hvalue, a.ne_nil, AttributeValue.value?_write,
    AttributeValue.strip_text]

/-- Attributes read back as they have been written. -/
theorem parse_write (as : List Attribute) : Attributes.parse (as.flatMap Attribute.write) = entries as := by
  have hfound : found Attributes.attribute? (as.flatMap Attribute.write) =
      as.map fun a => (a.name, a.value.text) := by
    induction as with
    | nil => rfl
    | cons a as ih =>
      obtain ⟨c, name, hname⟩ := List.exists_cons_of_ne_nil a.ne_nil
      have hrest := a.attribute?_write (as.flatMap Attribute.write)
      have hblank : Refused Attributes.attribute? [' ']
          (a.name ++ ('=' :: (a.value.write ++ as.flatMap Attribute.write))) :=
        .cons (by simp [Attributes.attribute?, show Attributes.isNameChar ' ' = false by decide]) (.nil _ _)
      have hread : found Attributes.attribute? (a.name ++ ('=' :: (a.value.write ++ as.flatMap Attribute.write))) =
          (a.name, a.value.text) :: found Attributes.attribute? (as.flatMap Attribute.write) := by
        rw [hname] at hrest ⊢
        simpa using found_found (s := name ++ '=' :: a.value.write) (by simpa using hrest)
      have hsplit : (a :: as).flatMap Attribute.write =
          [' '] ++ (a.name ++ ('=' :: (a.value.write ++ as.flatMap Attribute.write))) := by simp [Attribute.write]
      rw [hsplit, found_append hblank, hread, ih]
      rfl
  rw [Attributes.parse, hfound, entries]

theorem Attribute.notMem_write {c : Char} (h : isLetter c = false) (hd : c.isDigit = false)
    (hs : c ∉ [' ', '=', '"', '\x7b', '\x7d']) (a : Attribute) : c ∉ a.write := by
  have hname : c ∉ a.name := by
    intro hc
    simp [isLetter, List.all_eq_true.1 a.letters c hc] at h
  have hvalue : c ∉ a.value.write := by
    cases a.value with
    | quoted p =>
      have hp : c ∉ p.text := p.notMem h (by grind)
      grind [AttributeValue.write]
    | braced n =>
      have hn : c ∉ Text.ofNat n := fun hc => by simp [Text.isDigit_of_mem_ofNat hc] at hd
      grind [AttributeValue.write]
  grind [Attribute.write]

/-! ## Readers -/

section
variable {name s t : Text}

theorem body?_eq (h : Text.Clear (Element.endTag name) s (Element.endTag name ++ t)) :
    Element.body? name (s ++ (Element.endTag name ++ t)) = some (s, t) := Text.cut?_append h

theorem titled?_write (title : Phrase) (h : Text.Clear (Element.endTag name) s (Element.endTag name ++ t)) :
    Element.titled? name (titleLine name title ++ (s ++ (Element.endTag name ++ t))) =
      some (⟨title.text, s⟩, t) := by
  have hquote : '"' ∉ title.text := title.notMem (by decide) (by decide)
  have htitle : Text.cut? "\"" (title.text ++ ("\"" ++ ('>' :: (s ++ (Element.endTag name ++ t))))) =
      some (title.text, '>' :: (s ++ (Element.endTag name ++ t))) :=
    Text.cut?_append (@Text.clear_of_notMem [] _ _ hquote _)
  have hline : titleLine name title ++ (s ++ (Element.endTag name ++ t)) = Element.startTag name ++
      ' ' :: ("title=\"" ++ (title.text ++ ("\"" ++ ('>' :: (s ++ (Element.endTag name ++ t)))))) := by
    simp [titleLine]
  have hstart (u : Text) : Text.dropBlanks (' ' :: ("title=\"" ++ u)) = "title=\"" ++ u := rfl
  have hclose (u : Text) : Text.dropBlanks ('>' :: u) = '>' :: u := rfl
  have hblank : isBlank ' ' = true := by decide
  simp only [hline, Element.titled?, Text.after?_append, bind, Option.bind, hstart, htitle, hclose, body?_eq h]
  simp [hblank]

theorem described?_eq {inside : Text} (hstart : ∀ c ∈ inside.head?, isWord c = false) (hbracket : '>' ∉ inside)
    (h : Text.Clear (Element.endTag name) s (Element.endTag name ++ t)) :
    Element.described? name (Element.startTag name ++ (inside ++ '>' :: (s ++ (Element.endTag name ++ t)))) =
      some (⟨Attributes.parse inside, s⟩, t) := by
  have hname : (inside ++ '>' :: (s ++ (Element.endTag name ++ t))).head?.any isWord = false := by
    cases inside with
    | nil => simp; decide
    | cons c inside => simpa using hstart c
  have hcut : Text.cut? ">" (inside ++ '>' :: (s ++ (Element.endTag name ++ t))) =
      some (inside, s ++ (Element.endTag name ++ t)) :=
    Text.cut?_append (@Text.clear_of_notMem [] _ _ hbracket _)
  simp only [Element.described?, Element.tagText?, Text.after?_append, bind, Option.bind, hname, hcut]
  simp [body?_eq h]

theorem described?_write (as : List Attribute)
    (h : Text.Clear (Element.endTag name) s (Element.endTag name ++ t)) :
    Element.described? name (Element.startTag name ++ (as.flatMap Attribute.write ++ ['>']) ++
      (s ++ (Element.endTag name ++ t))) = some (⟨entries as, s⟩, t) := by
  have hline : Element.startTag name ++ (as.flatMap Attribute.write ++ ['>']) ++ (s ++ (Element.endTag name ++ t)) =
      Element.startTag name ++ (as.flatMap Attribute.write ++ '>' :: (s ++ (Element.endTag name ++ t))) := by simp
  have hstart : ∀ c ∈ (as.flatMap Attribute.write).head?, isWord c = false := by
    cases as with
    | nil => simp
    | cons a as => simp [Attribute.write]; decide
  have hbracket : '>' ∉ as.flatMap Attribute.write := by
    intro hc
    obtain ⟨a, -, ha⟩ := List.mem_flatMap.1 hc
    exact a.notMem_write (by decide) (by decide) (by decide) ha
  rw [hline, described?_eq hstart hbracket h, parse_write]

theorem plain?_write (h : Text.Clear (Element.endTag name) s (Element.endTag name ++ t)) :
    Element.plain? name (Element.startTag name ++ ['>'] ++ (s ++ (Element.endTag name ++ t))) = some (s, t) := by
  have hclose (u : Text) : Text.dropBlanks ('>' :: u) = '>' :: u := rfl
  simp [Element.plain?, Text.after?_append, hclose, body?_eq h]

theorem callout?_write {type : Text} (known : type ∈ Element.calloutKinds)
    (h : Text.Clear Element.colons s (Element.colons ++ t)) :
    Element.callout? (Element.colons ++ type ++ '\n' :: (s ++ (Element.colons ++ t))) = some (⟨type, s⟩, t) := by
  have hcut := Text.cut?_append h
  have htype : (Element.calloutKinds.findSome? fun k =>
      (Text.after? k (type ++ '\n' :: (s ++ (Element.colons ++ t)))).map fun t => (k, t)) =
      some (type, '\n' :: (s ++ (Element.colons ++ t))) := by
    simp only [Element.calloutKinds, List.mem_cons, List.not_mem_nil, or_false] at known
    rcases known with rfl | rfl | rfl | rfl | rfl | rfl <;> rfl
  have hbreak (u : Text) : ('\n' :: u).dropWhile isIndent = '\n' :: u := rfl
  simp only [Element.callout?, List.append_assoc, Text.after?_append, bind, Option.bind]
  rw [htype]
  simp [hbreak, hcut]

end

end DocPages.Markup
