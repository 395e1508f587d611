import DocPages.Attributes
import DocPages.Html.Icon

/-!
# Components of a document

The components that authors write around regions of a document: how each is recognised and the HTML that it
becomes. A component ends at the first end tag of its name, so it does not hold another of its own kind.
-/

namespace DocPages

open Html

namespace Element

def startTag (name : Text) : Text := '<' :: name

def endTag (name : Text) : Text := '<' :: '/' :: name ++ ['>']

/-- What stands between a start tag that has been read and its end tag. -/
def body? (name t : Text) : Option (Text × Text) := Text.cut? (endTag name) t

/-- A component with nothing in its start tag. -/
def plain? (name : Text) : Reader Char Text := fun t => do
  let t ← Text.after? (startTag name) t
  let '>' :: t := Text.dropBlanks t | none
  body? name t

/-- The text and the body of a component. -/
structure Labelled where
  label : Text
  body : Text

/-- A component with a title and nothing else in its start tag. -/
def titled? (name : Text) : Reader Char Labelled := fun t => do
  let t ← Text.after? (startTag name) t
  if !t.head?.any isBlank then none
  let t ← Text.after? "title=\"" (Text.dropBlanks t)
  let (title, t) ← Text.cut? "\"" t
  let '>' :: t := Text.dropBlanks t | none
  let (body, t) ← body? name t
  return (⟨title, body⟩, t)

/-- What stands between the name of a tag and its bracket. -/
def tagText? (name : Text) : Reader Char Text := fun t => do
  let t ← Text.after? (startTag name) t
  if t.head?.any isWord then none
  Text.cut? ">" t

/-- The attributes and the body of a component. -/
structure Described where
  attributes : Attributes
  body : Text

/-- A component with attributes. -/
def described? (name : Text) : Reader Char Described := fun t => do
  let (inside, t) ← tagText? name t
  let (body, t) ← body? name t
  return (⟨Attributes.parse inside, body⟩, t)

/-- A tag without a body, which may close itself. -/
def single? (name : Text) : Reader Char Attributes := fun t => do
  let (inside, t) ← tagText? name t
  return (Attributes.parse (if inside.getLast? = some '/' then inside.dropLast else inside), t)

def calloutKinds : List Text := ["info", "warning", "danger", "tip", "success", "note"]

def colons : Text := ":::"

/-- A callout: its kind behind three colons on a line of its own, and all up to the next three. -/
def callout? : Reader Char Labelled := fun t => do
  let t ← Text.after? colons t
  let (kind, t) ← calloutKinds.findSome? fun k => (Text.after? k t).map fun t => (k, t)
  let '\n' :: t := t.dropWhile isIndent | none
  let (body, t) ← Text.cut? colons t
  return (⟨kind, body⟩, t)

def callout (kind inner : Text) : Html :=
  div ("callout callout-" ++ kind)
    (div "callout-icon" (Icon.callout kind) ++ div "callout-content" (.raw inner))

def accordion (title inner : Text) : Html :=
  .element .div [.cls "doc-accordion", .flag "data-accordion"]
    (.element .button [.cls "doc-accordion-header", .flag "data-accordion-trigger"]
      (.element .span [] (.text title) ++ Icon.chevron)
      ++ .element .div [.cls "doc-accordion-content", .flag "data-accordion-content"] (.raw inner))

/-- The class of a button or a panel; the first is active. -/
def tabClass (cls : Text) (i : Nat) : Attr := .cls (cls ++ if i = 0 then " active" else "")

/-- The button and the panel of a tab. -/
def tab (i : Nat) (title inner : Text) : Html × Html :=
  (.element .button [tabClass "doc-tab-button" i, .flag "data-tab-trigger", .fixed "data-tab-index" (Text.ofNat i)]
      (.text title),
    .element .div [tabClass "doc-tab-panel" i, .flag "data-tab-panel", .fixed "data-tab-index" (Text.ofNat i)]
      (.raw inner))

def tabs (id : Text) (parts : List (Text × Text)) : Html :=
  let (buttons, panels) := (parts.zipIdx.map fun ((title, inner), i) => tab i title inner).unzip
  .element .div [.cls "doc-tabs", .flag "data-tabs", .fixed "id" id]
    (div "doc-tabs-header" (concat buttons) ++ div "doc-tabs-content" (concat panels))

def step (number : Nat) (title inner : Text) : Html :=
  div "doc-step"
    (div "doc-step-number" (.text (Text.ofNat number))
      ++ div "doc-step-content"
        (div "doc-step-title" (.text title) ++ div "doc-step-body" (.raw inner)))

def steps (parts : List (Text × Text)) : Html :=
  div "doc-steps" (concat (parts.zipIdx.map fun ((title, inner), i) => step (i + 1) title inner))

/-- A grid of cards, of two columns unless a number is given. -/
def cardGroup (as : Attributes) (inner : Text) : Html :=
  let cols := as.get "cols"
  div ("doc-card-group cols-" ++ if Text.isDigits cols then cols else "2") (.raw inner)

/-- A card; one with an address is a link. -/
def card (as : Attributes) (inner : Text) : Html :=
  let href := as.get "href"
  let content := div "doc-card-icon" (Icon.card (as.get "icon"))
    ++ div "doc-card-body"
      (div "doc-card-title" (.text (as.get "title")) ++ div "doc-card-description" (.raw inner))
  if href.isEmpty then div "doc-card" content
  else .element .a [.cls "doc-card", .escaped "href" href] (content ++ Icon.arrow)

/-- The badge of a request method; its class keeps the plain letters. -/
def methodBadge (method : Text) : Html :=
  span ("doc-api-method method-" ++ (Text.lower method).filter isPlainLetter)
    (.text (Text.upper method))

def endpoint (as : Attributes) (inner : Text) : Html :=
  div "doc-api-endpoint"
    (div "doc-api-header"
      (methodBadge (as.get "method") ++ code "doc-api-path" (.text (as.get "path")))
      ++ div "doc-api-content" (.raw inner))

def parameterTable (inner : Text) : Html := div "doc-parameter-table" (.raw inner)

/-- A marker for a grid of child pages, which is filled in later. -/
def childGrid (as : Attributes) : Html :=
  let path := as.get "path"
  let columns := as.get "columns"
  let filters := as.get "filters"
  .element .div
    ([.fixed "data-child-grid" "true"]
      ++ (if path.isEmpty then [] else [.escaped "data-path" path])
      ++ (if Text.isDigits columns then [.fixed "data-columns" columns] else [])
      ++ (if filters = "true" ∨ filters = "false" then [.fixed "data-filters" filters] else []))
    .empty

/-- A frame that looks like a browser window. -/
def browserMockup (as : Attributes) (inner : Text) : Html :=
  let theme := (Text.lower (as.get "theme")).filter fun c => isPlainLetter c || c == '-'
  let dot : Html := .element .span [] .empty
  div ("doc-browser-mockup theme-" ++ if theme.isEmpty then "light".toList else theme)
    (div "doc-browser-toolbar"
      (span "doc-browser-dots" (dot ++ dot ++ dot)
        ++ div "doc-browser-url" (.text (as.get "url")))
      ++ div "doc-browser-content" (.raw inner))

end Element

end DocPages
