import DocPages.Cms
import DocPages.Json.Display
import DocPages.Markdown.Engine
import DocPages.Page.Render
import DocPages.Site.Options
import DocPages.Site.Pages

/-!
# Running a command

A command renders one file, all pages of a folder or one document of the content store. What it needs from
its host is a value, and so is all that it does: how it ends, what it prints, the files it writes and the
requests it sends.
-/

namespace DocPages

open Utf8 (Bytes)

/-- What a command finds around it. -/
structure Host where
  /-- The working folder. -/
  here : Text
  env : Keyed Text
  find? : Text → Option Entry
  send : Cms.Request → Cms.Reply

inductive Ending where
  | done
  /-- It gave up with an exit code. -/
  | stopped (code : Nat)
  | undecodable (fault : Utf8.Fault)
  /-- The content of the document is no text. -/
  | noText
  deriving DecidableEq

structure Outcome where
  ending : Ending
  printed : Text
  /-- Paths and contents in the order in which they are written. -/
  writes : List (Text × Text) := []
  requests : List Cms.Request := []

namespace Command

def toc (content : Text) : Text :=
  Json.indentedAscii (.arr ((outline content).map fun h =>
    .obj [("depth", .int h.depth), ("slug", .str h.slug), ("text", .str h.text)]))

/-- The files of a page that is written to `output`. -/
def pageFiles (withToc : Bool) (content : Text) (page : Page) (output : Text) : List (Text × Text) :=
  (output, page.html) :: if withToc then [(Path.withExtension output ".toc.json", toc content)] else []

def htmlPath (path : Text) : Text := Path.withExtension path ".html"

/-- The issues of a page, each with the path of the page. -/
def issuesAt (path : Text) (page : Page) : List (Text × Issue) := page.issues.map fun i => (path, i)

def issueLine (path : Text) (i : Issue) : Text := "    - " ++ path ++ ": " ++ i.message ++ "\n"

def summary (pages : Nat) (issues : List (Text × Issue)) : Text :=
  "\n  Pages rendered:  " ++ Text.ofNat pages
    ++ "\n  QA issues found: " ++ Text.ofNat issues.length
    ++ '\n' :: (issues.flatMap fun (path, i) => issueLine path i) ++ "\n"

/-- The text of a file. -/
def readText (content : Bytes) : Except Utf8.Fault Text := (Utf8.decode content).map Text.unifyBreaks

/-- Renders a file, by default to a file beside it. -/
def renderFile (r : Renderer) (here : Text) (o : Options) (file : Bytes) : Outcome :=
  let start := "[1/1] " ++ Path.baseName o.source ++ "..."
  match readText file with
  | .error fault => { ending := .undecodable fault, printed := start }
  | .ok content =>
    let output := Text.orDefault o.output (htmlPath o.source)
    let page := r.page content
    { ending := .done
      printed := start ++ " ✓\n" ++ summary 1 (issuesAt o.source page)
        ++ "  Output: " ++ Path.absolute here output ++ "\n"
      writes := pageFiles o.toc content page output }

/-- What became of one page of a folder. -/
structure Step where
  printed : Text
  writes : List (Text × Text)
  issues : List (Text × Issue)
  rendered : Bool

def renderPage (r : Renderer) (withToc : Bool) (output path : Text) (file : Bytes) : Step :=
  match readText file with
  | .error fault => ⟨" ✗ (" ++ fault.message ++ ")\n", [], [], false⟩
  | .ok content =>
    let page := r.page content
    ⟨" ✓\n", pageFiles withToc content page (Path.join output (htmlPath path)), issuesAt path page, true⟩

/-- The line of the page with number `i` of `total`. -/
def pageLine (i total : Nat) (path : Text) (step : Step) : Text :=
  '[' :: Text.ofNat i ++ '/' :: Text.ofNat total ++ "] " ++ path ++ "..." ++ step.printed

/-- Renders the pages of a folder to a folder of the same shape; a page that is no text is passed over. -/
def renderFolder (r : Renderer) (here : Text) (o : Options) (folder : Entry) : Outcome :=
  match folder.pages with
  | [] => { ending := .done, printed := "  ✗ No Markdown files found in " ++ o.source ++ "\n" }
  | pages =>
    let output := Text.orDefault o.output "./output"
    let steps := pages.map fun (path, file) => renderPage r o.toc output path file
    let lines : Text := (pages.zip steps).zipIdx.flatMap fun ((page, step), i) =>
      pageLine (i + 1) pages.length page.1 step
    { ending := .done
      printed := lines ++ summary (steps.filter Step.rendered).length (steps.flatMap Step.issues)
        ++ "  Output directory: " ++ Path.absolute here output ++ "\n"
      writes := steps.flatMap Step.writes }

/-- The text of a document; one without content has an empty one. -/
def contentOf? (document : Members) : Option Text :=
  match (document.get? "content").getD .null with
  | .str t => some t
  | j => if j.isTruthy then none else some []

def renderDocument (r : Renderer) (host : Host) (s : Settings) (o : Options) : Outcome :=
  let request := Cms.requestByPath s o.source
  let fetched := (host.send request).fetched request Cms.documentByPath?
  let start := "[1/2] Fetching " ++ o.source ++ " from " ++ s.cmsUrl ++ "...\n" ++ fetched.warning
  match fetched.document with
  | none | some [] =>
    { ending := .stopped 1
      printed := start ++ "Error: could not fetch document '" ++ o.source ++ "' from the CMS.\n"
      requests := [request] }
  | some document =>
    let title := ((document.get? "title").getD .null).orElse (.str o.source)
    let start := start ++ "  ✓ " ++ title.display ++ "\n[2/2] Rendering..."
    match contentOf? document with
    | none => { ending := .noText, printed := start, requests := [request] }
    | some content =>
      let output := Text.orDefault o.output (htmlPath (Path.baseName o.source))
      let page := r.page content
      { ending := .done
        printed := start ++ " ✓\n" ++ summary 1 (issuesAt o.source page)
          ++ "  Output: " ++ Path.absolute host.here output ++ "\n"
        writes := pageFiles o.toc content page output
        requests := [request] }

def renderSource (host : Host) (o : Options) : Outcome :=
  let s := Settings.ofEnv host.env
  let r := Renderer.ofSettings s Markdown.toHtml
  if o.cms then renderDocument r host s o
  else match host.find? o.source with
    | some (.folder es) => renderFolder r host.here o (.folder es)
    | some (.file content) => renderFile r host.here o content
    | none =>
      { ending := .stopped 1
        printed := "Error: '" ++ o.source ++ "' is not a file or directory.\n"
          ++ "  File mode: python render.py ./docs/intro.md\n"
          ++ "  Dir mode:  python render.py ./docs\n" }

def usage : Text := "usage: docpages [-h] [--output OUTPUT] [--cms] [--toc] source\n"

def run (host : Host) : Command → Outcome
  | render o => renderSource host o
  | help => { ending := .done, printed := usage }
  | misused => { ending := .stopped 2, printed := [] }

end Command

end DocPages
