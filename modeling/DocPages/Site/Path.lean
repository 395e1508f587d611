import DocPages.Text.Basic

/-!
# Paths

A path is a text with slashes between names. Nothing here looks at a file system: paths are joined, taken
apart and brought to normal form as they are written.
-/

namespace DocPages.Path

def names (p : Text) : List Text := Text.splitAt '/' p

def isAbsolute (p : Text) : Bool := p.head? == some '/'

/-- The last name of a path, empty behind a slash at the end. -/
def baseName (p : Text) : Text := ((names p).getLast?).getD []

/-- The path in front of the last name. -/
def folder (p : Text) : Text := Text.join "/" (names p).dropLast

/-- The extension of the last name with its dot. Dots at the beginning of a name belong to the name. -/
def extension (p : Text) : Text :=
  let name := (baseName p).dropWhile (· == '.')
  if name.contains '.' then '.' :: (name.reverse.takeWhile (· != '.')).reverse else []

def withExtension (p new : Text) : Text := p.take (p.length - (extension p).length) ++ new

/-- The path `b` as seen from the folder `a`. -/
def join (a b : Text) : Text :=
  if isAbsolute b then b
  else if a.isEmpty ∨ a.getLast? = some '/' then a ++ b
  else a ++ '/' :: b

/-- The slashes in front of an absolute path in normal form: exactly two stay two. -/
def root (p : Text) : Text :=
  match (p.takeWhile (· == '/')).length with
  | 0 => []
  | 2 => "//"
  | _ => "/"

/-- Walks to a name from the names passed so far, the last of them first. -/
def step (rooted : Bool) (passed : List Text) (name : Text) : List Text :=
  if name.isEmpty ∨ name = "." then passed
  else if name ≠ ".." then name :: passed
  else match passed with
    | [] => if rooted then [] else [name]
    | last :: rest => if last = ".." then name :: passed else rest

/-- The path without empty names, single dots and ways back. -/
def normal (p : Text) : Text :=
  let passed := (names p).foldl (step (isAbsolute p)) []
  let t := root p ++ Text.join "/" passed.reverse
  if t.isEmpty then "." else t

/-- The path from the root, where `here` is the working folder. -/
def absolute (here p : Text) : Text := normal (if isAbsolute p then p else join here p)

end DocPages.Path
