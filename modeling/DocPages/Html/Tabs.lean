import DocPages.Html.Basic
import DocPages.Text.Class

/-!
# Tab strips

Buttons above panels; the first of each is active, and equal numbers belong together.
-/

namespace DocPages.Html

def active (cls : Text) (i : Nat) : Attr := .cls (if i = 0 then cls ++ " active" else cls)

def tabButton (title : Text) (i : Nat) : Html :=
  .element .button
    [active "doc-tab-button" i, .flag "data-tab-trigger", .fixed "data-tab-index" (Text.ofNat i)]
    (.text title)

def tabPanel (panel : Html) (i : Nat) : Html :=
  .element .div
    [active "doc-tab-panel" i, .flag "data-tab-panel", .fixed "data-tab-index" (Text.ofNat i)]
    panel

/-- A tab strip with the given id. -/
def tabs (cls id : Text) (titles : List Text) (panels : List Html) : Html :=
  .element .div [.cls cls, .flag "data-tabs", .fixed "id" id]
    (div "doc-tabs-header" (concat (titles.zipIdx.map fun (t, i) => tabButton t i))
      ++ div "doc-tabs-content" (concat (panels.zipIdx.map fun (p, i) => tabPanel p i)))

/-- A tab strip with one more class than every strip has; it may be empty. -/
def tabStrip (cls id : Text) (titles : List Text) (panels : List Html) : Html :=
  tabs (Text.strip ("doc-tabs " ++ cls)) id titles panels

end DocPages.Html
