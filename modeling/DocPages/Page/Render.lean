import DocPages.Heading
import DocPages.Page.ApiTags
import DocPages.Page.Artifact
import DocPages.Page.Code
import DocPages.Page.Element
import DocPages.Page.Media
import DocPages.Settings

/-!
# Pages

A page is rendered in passes over its text. Each pass replaces one kind of construct by a placeholder and
puts its HTML on the shelf; the regions inside a component go through all passes themselves. What remains
goes through the Markdown engine, and the fragments are put back into the result. The engine and the resolver
of media paths are parameters.
-/

namespace DocPages

structure Renderer where
  /-- From Markdown to HTML. -/
  engine : Text → Text
  /-- From a path below the media root to an address. -/
  resolve : Text → Text
  mediaRoot : Text
  maxDepth : Int

namespace Renderer

/-- The renderer that resolves media paths as the settings say. -/
def ofSettings (s : Settings) (engine : Text → Text) : Renderer where
  engine := engine
  resolve := resolveMedia s.cmsUrl s.mediaRoot
  mediaRoot := s.mediaRoot
  maxDepth := s.maxDepth

/-- Replaces constructs by placeholders for what `html` makes of them. -/
def shelveAll {α : Type} (read : Reader Char α) (html : α → StateM Work Html) (t : Text) :
    StateM Work Text :=
  Text.mapFoundM read (fun a => do Work.shelve (← html a).write) t

/-- The same for a component that groups items; without any it leaves its body as it stands. -/
def shelveGroups (name item : Text) (html : List Element.Labelled → StateM Work Html) (t : Text) :
    StateM Work Text :=
  Text.mapFoundM (Element.plain? name)
    (fun body => match found (Element.titled? item) body with
      | [] => return body
      | items => do Work.shelve (← html items).write) t

/-- Replaces groups of tabs. The id of a group is drawn before its panels are rendered. -/
def placeTabs (inner : Text → StateM Work Text) : Text → StateM Work Text :=
  shelveGroups "Tabs" "Tab" fun items => do
    let id ← Work.withIds (IdSupply.draw "tabs")
    return Element.tabs id (← items.mapM fun e => return (e.label, ← inner e.body))

/-- Replaces code and components, where `inner` renders the regions inside them. -/
def placeElements (r : Renderer) (inner : Text → StateM Work Text) (t : Text) : StateM Work Text := do
  let described (name : Text) (html : Attributes → Text → Html) : Text → StateM Work Text :=
    shelveAll (Element.described? name) fun e => return html e.attributes (← inner e.body)
  let t ← shelveAll Code.titled? (fun b => return b.html) t
  let t ← Code.replaceFenced (fun block => Work.shelve (r.engine block)) t
  let t ← shelveAll Element.callout? (fun e => return Element.callout e.label (← inner e.body)) t
  let t ← shelveAll (Element.titled? "Accordion")
    (fun e => return Element.accordion e.label (← inner e.body)) t
  let t ← placeTabs inner t
  let t ← shelveGroups "Steps" "Step" (fun items => do
    return Element.steps (← items.mapM fun e => return (e.label, ← inner e.body))) t
  let t ← described "CardGroup" Element.cardGroup t
  let t ← described "Card" Element.card t
  let t ← described "APIEndpoint" Element.endpoint t
  let t ← shelveAll (Element.plain? "ParameterTable")
    (fun body => return Element.parameterTable (← inner body)) t
  let t ← Api.placeComponents r.maxDepth t
  let t ← shelveAll (Element.single? "ChildGrid") (fun as => return Element.childGrid as) t
  described "BrowserMockup" Element.browserMockup t

/-- A region rendered with at most `depth` components around each other. -/
def renderWithin (r : Renderer) : (depth : Nat) → Text → StateM Work Text
  | 0, t => return r.engine t
  | depth + 1, t => do
    let t ← r.placeElements (fun t => renderWithin r depth (Text.strip t)) (Artifact.strip t)
    return r.engine (Media.resolveAll r.mediaRoot r.resolve t)

/-- A region of a page. Components inside each other each begin with a character of their own, so there are
never more of them than characters. -/
def render (r : Renderer) (t : Text) : StateM Work Text := renderWithin r (t.length + 1) t

end Renderer

/-- The header of a page that describes one request: its method and path, and what the path is below. -/
def endpointHeader (fm : FrontMatter) : Html :=
  match fm.text? "method", fm.text? "path" with
  | some method, some path =>
    let base := dropSlashes ((fm.text? "base_url").getD [])
    Html.div "doc-api-endpoint-header"
      (Element.methodBadge method
        ++ Html.code "doc-api-url"
          (Html.when (!base.isEmpty) (Html.span "doc-api-base-url" (.text base))
            ++ Html.span "doc-api-path" (.text path))
        ++ .element .button [.cls "doc-api-copy", .escaped "data-copy-text" (base ++ path)] Icon.copy)
      ++ .text "\n"
  | _, _ => .empty

structure Page where
  html : Text
  /-- The fragments that were on the shelf, in order. -/
  blocks : List Text
  issues : List Issue

/-- The page of a document. A document without any text has an empty one. -/
def Renderer.page (r : Renderer) (content : Text) : Page :=
  if content.isEmpty then ⟨[], [], []⟩
  else
    let (fm, body) := FrontMatter.split content
    let (html, work) := (r.render body).run Work.fresh
    let html := work.shelf.restore html
    let leftovers := (work.shelf.leftovers html).map Issue.leftover
    ⟨(endpointHeader fm).write ++ html, work.shelf.blocks, work.issues ++ leftovers⟩

end DocPages
