import DocPages.Site.Tree
import DocPages.Text.Class

/-!
# The pages of a tree

Pages are the Markdown files, known by their extension. They are listed folder by folder: a folder's own pages
by name, then those of its subfolders by name. Folders whose names begin with a dot are left out.
-/

namespace DocPages.Entry

open Utf8 (Bytes)

def endsWith (t ending : Text) : Bool := Text.startsWith t.reverse ending.reverse

def isPageName (name : Text) : Bool :=
  let name := Text.lower name
  endsWith name ".md" || endsWith name ".mdx"

def isHiddenName (name : Text) : Bool := name.head? == some '.'

/-- The pages among the entries of a folder. -/
def ownPages (es : List (Text × Entry)) : List (Text × Bytes) :=
  (Keyed.sorted es).filterMap fun
    | (name, file content) => if isPageName name then some (name, content) else none
    | (_, folder _) => none

mutual

/-- The pages with their paths and contents. -/
def pages : Entry → List (Text × Bytes)
  | file _ => []
  | folder es => ownPages es ++ (Keyed.sorted (subfolderPages es)).flatMap fun (name, ps) =>
      ps.map fun (path, content) => (name ++ '/' :: path, content)
  termination_by structural e => e

/-- The visible subfolders with their pages. -/
def subfolderPages : List (Text × Entry) → List (Text × List (Text × Bytes))
  | [] => []
  | (_, .file _) :: es => subfolderPages es
  | (name, .folder es') :: es =>
    if isHiddenName name then subfolderPages es
    else (name, pages (.folder es')) :: subfolderPages es
  termination_by structural es => es

end

end DocPages.Entry
