import DocPages.Api.Payload
import DocPages.Page.Work
import DocPages.Text.Class

/-!
# API tags in a document

Tags of the API reference are replaced by their cards, one kind after the other. Whatever is wrong with a
payload stays local: the place of the tag shows what could not be read, and the search goes on behind it. The
parts that describe the request are marked, and everything from the first to the last mark is put into
one section.
-/

namespace DocPages.Api

/-- How a tag of a component may occur: without a payload, with one whose braces do not close, or with a
payload between its braces. -/
inductive Occurrence where
  | bare
  | unclosed
  | payload (raw : Text)
  deriving DecidableEq

/-- Whether a tag name ends here, so that it is not the beginning of a longer one. -/
def endsName : Text → Bool
  | [] => true
  | c :: _ => isBlank c || c == '/' || c == '>'

/-- The text behind the end of the tag. -/
def afterTag? (t : Text) : Option Text := (Text.cut? ">" t).map Prod.snd

/-- What follows the opening brace of the payload, if the tag has one before it ends. -/
def payloadStart? (c : Component) (t : Text) : Option Text := do
  let (before, rest) ← Text.cut? (c.attr ++ ['=', '\x7b']) t
  if before.contains '>' then none else some rest

/-- An occurrence of a component's tag. A bare tag ends with its bracket; one with an unclosed payload
ends with its name, so that what follows is searched once more. -/
def occurrence? (c : Component) : Reader Char Occurrence := fun t => do
  let t ← Text.after? ('<' :: c.tag) t
  if !endsName t then none
  match payloadStart? c t with
  | none => return (.bare, (afterTag? t).getD [])
  | some body => match splitClosing .outside 1 body with
    | none => return (.unclosed, t)
    | some (raw, rest) => return (.payload raw, (afterTag? rest).getD rest)

def faultBox (c : Component) (f : Fault) : Html :=
  Html.div "doc-api-error"
    (.text ("Could not parse " ++ c.label ++ " (" ++ f.reason ++ ")"))

/-- Reports a payload that cannot be used and shows so in its place. -/
def reject (c : Component) (f : Fault) : StateM Work Text := do
  Work.report (.payload c f)
  Work.shelve (faultBox c f).write

def requestMark : Text := "<!--docforge:request-part-->"

/-- The text that takes the place of an occurrence. -/
def place (maxDepth : Int) (c : Component) : Occurrence → StateM Work Text
  | .bare => return []
  | .unclosed => reject c .unbalanced
  | .payload raw => match payload? raw with
    | none => reject c .invalid
    | some payload => do
      match ← Work.withIds (c.render maxDepth payload) with
      | none => return []
      | some card =>
        let held ← Work.shelve card.write
        return if c.isRequestPart then "\n\n" ++ requestMark ++ held ++ requestMark ++ "\n\n" else held

/-- Replaces all tags of one component. -/
def placeAll (maxDepth : Int) (c : Component) (t : Text) : StateM Work Text :=
  Text.mapFoundM (occurrence? c) (place maxDepth c) t

/-- The text around the last occurrence of `sep`. -/
def cutLast? (sep t : Text) : Option (Text × Text) :=
  (Text.cut? sep.reverse t.reverse).map fun (after, before) => (before.reverse, after.reverse)

def requestOpening (id : Text) : Text :=
  "<div class=\"doc-api-section doc-api-request\">\n<h2 id=\"" ++ id ++ "\">Request</h2>\n"

/-- Puts what stands between the first and the last mark into one section. -/
def wrapRequest (t : Text) : StateM IdSupply Text := do
  match Text.cut? requestMark t with
  | none => return t
  | some (before, rest) =>
    let (inner, after) := (cutLast? requestMark rest).getD ([], rest)
    let id ← IdSupply.draw "request"
    return before ++ "\n\n" ++ requestOpening id ++ "\n" ++ Text.replace requestMark [] inner
      ++ "\n\n</div>\n\n" ++ after

/-- Replaces the tags of all components, in their order, and gathers the request. -/
def placeComponents (maxDepth : Int) (t : Text) : StateM Work Text := do
  let t ← Component.all.foldlM (fun t c => placeAll maxDepth c t) t
  Work.withIds (wrapRequest t)

end DocPages.Api
