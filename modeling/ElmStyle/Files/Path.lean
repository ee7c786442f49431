import ElmStyle.Text.Pieces

/-!
# Paths

A path is a row of names between slashes. It leads from the root if it starts with a slash, and from
the working directory if it does not. Its *steps* are all that stands between slashes, so that a
slash at the end leaves an empty one. Its *names* leave out the steps that stay in place; behind the
slashes at the start they give the tidy form of the path, in which `..` is kept, since what it leads
to depends on the directories.

Links are left out, so that a step back always leads to the directory that holds a place, and so are
names that a file system refuses for their length or for a null character in them.
-/
namespace ElmStyle.Files

/-- The slashes that a path from the root starts with: two are kept, more than two count as one. -/
def rootOf (path : String) : String :=
  match (path.toList.takeWhile (· == '/')).length with
  | 0 => ""
  | 2 => "//"
  | _ => "/"

/-- All steps of a path. -/
def steps (path : String) : List String :=
  (Text.pieces (· == '/') path.toList).map String.ofList

/-- A step that stays where it is. -/
def staysInPlace (step : String) : Bool := step == "" || step == "."

/-- The steps of a path that lead somewhere. -/
def names (path : String) : List String := (steps path).filter (!staysInPlace ·)

/-- The path of these names from a root or, if that is empty, from the working directory. -/
def joined (root : String) (names : List String) : String :=
  if root = "" ∧ names = [] then "." else root ++ "/".intercalate names

/-- The path without steps that stay in place. -/
def tidy (path : String) : String := joined (rootOf path) (names path)

/-- A place: the names that lead to it from the root, which is the place of no names. -/
abbrev Place := List String

/-- The place that one step leads to. A step back from the root stays there. -/
def step (place : Place) (name : String) : Place :=
  if staysInPlace name then place
  else if name == ".." then place.dropLast
  else place ++ [name]

end ElmStyle.Files
