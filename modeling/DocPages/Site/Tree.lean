import DocPages.Keyed
import DocPages.Site.Path
import DocPages.Text.Utf8

/-!
# File trees

Files and folders below one folder. Paths are followed name by name, so a way back leads to the folder that
was passed, and a path through a file or to a place above the tree leads nowhere.
-/

namespace DocPages

open Utf8 (Bytes)

inductive Entry where
  | file (content : Bytes)
  | folder (entries : List (Text × Entry))

namespace Entry

/-- What names lead to; `passed` are the folders above, the nearest first. -/
def follow (passed : List Entry) (here : Entry) : List Text → Option Entry
  | [] => some here
  | name :: names => match here with
    | file _ => none
    | folder es =>
      if name.isEmpty ∨ name = "." then follow passed here names
      else if name = ".." then match passed with
        | [] => none
        | above :: passed => follow passed above names
      else match Keyed.get? es name with
        | some e => follow (here :: passed) e names
        | none => none

/-- What a path leads to from the top of the tree. -/
def find? (top : Entry) (path : Text) : Option Entry :=
  if path.isEmpty ∨ Path.isAbsolute path then none else follow [] top (Path.names path)

/-- The tree with `change` applied to what is or is not behind the names; missing folders are made. -/
def alter? (change : Option Entry → Option Entry) : List Text → Option Entry → Option Entry
  | [], here => change here
  | name :: names, here => do
    let es ← match here with
      | none => some []
      | some (folder es) => some es
      | some (file _) => none
    return folder (Keyed.put name (← alter? change names (Keyed.get? es name)) es)

/-- The names of a path in normal form, if it stays below the top. -/
def namesBelow? (path : Text) : Option (List Text) :=
  let path := Path.normal path
  let names := Path.names path
  if Path.isAbsolute path ∨ path = "." ∨ names.head? = some ".." then none else some names

/-- The tree with a file written; a folder is never replaced by one. -/
def write? (path : Text) (content : Bytes) (top : Entry) : Option Entry := do
  alter? (fun
    | some (folder _) => none
    | _ => some (file content)) (← namesBelow? path) (some top)

/-- The tree with a folder at the path. -/
def makeFolder? (path : Text) (top : Entry) : Option Entry := do
  alter? (fun
    | none => some (folder [])
    | some (folder es) => some (folder es)
    | some (file _) => none) (← namesBelow? path) (some top)

mutual

/-- The files of a tree with their paths. -/
def files : Entry → List (Text × Bytes)
  | file _ => []
  | folder es => filesOf es
  termination_by structural e => e

def filesOf : List (Text × Entry) → List (Text × Bytes)
  | [] => []
  | (name, .file content) :: es => (name, content) :: filesOf es
  | (name, .folder es') :: es =>
    (files (.folder es')).map (fun (path, content) => (name ++ '/' :: path, content)) ++ filesOf es
  termination_by structural es => es

end

/-- The files that are new or have another content than before. -/
def changes (before after : Entry) : List (Text × Bytes) :=
  let old := files before
  (files after).filter fun (path, content) => Keyed.get? old path != some content

end Entry

end DocPages
