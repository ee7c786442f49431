import ElmStyle.Files.Path
import ElmStyle.Text.Newline
import ElmStyle.Text.Utf8

/-!
# File trees

The files and directories that a run sees, and the working directory. That directory and those above
it up to the root are always there. A step is possible only in a directory, and a directory is made
only in a directory.

Links and permissions are left out, and so is a disk that is full: what fails here fails for what is
at the places of a path.
-/
namespace ElmStyle.Files

inductive Node where
  | directory
  | file (bytes : List UInt8)
  deriving DecidableEq, Repr

structure Tree where
  workingDirectory : Place
  nodes : List (Place × Node)
  deriving DecidableEq, Repr

/-- Why an operation on a path fails. -/
inductive Fault where
  | notFound | exists | notDirectory | isDirectory
  deriving DecidableEq, Repr

def Fault.number : Fault → Nat
  | .notFound => 2
  | .exists => 17
  | .notDirectory => 20
  | .isDirectory => 21

def Fault.message : Fault → String
  | .notFound => "No such file or directory"
  | .exists => "File exists"
  | .notDirectory => "Not a directory"
  | .isDirectory => "Is a directory"

/-- A fault and the tidy path that it is about. -/
structure Failure where
  fault : Fault
  path : String
  deriving DecidableEq, Repr

def Failure.message (f : Failure) : String :=
  s!"[Errno {f.fault.number}] {f.fault.message}: {Text.quoted f.path}"

namespace Tree

/-- Only the working directory and those above it. -/
def bare (workingDirectory : Place) : Tree := ⟨workingDirectory, []⟩

/-- What is at a place. -/
def get? (t : Tree) (place : Place) : Option Node :=
  if place.isPrefixOf t.workingDirectory then some .directory else t.nodes.lookup place

/-- Put a node at a place, in the stead of what is there. -/
def set (t : Tree) (place : Place) (node : Node) : Tree :=
  { t with nodes := (place, node) :: t.nodes.filter (·.1 != place) }

/-- Where paths with this root start. -/
def start (t : Tree) (root : String) : Place := if root = "" then t.workingDirectory else []

/-- The place that steps lead to. Each step starts from a directory; the last may lead to nothing.
-/
def follow (t : Tree) (place : Place) : List String → Except Fault Place
  | [] => .ok place
  | name :: rest => match t.get? place with
    | some .directory => t.follow (step place name) rest
    | some (.file _) => .error .notDirectory
    | none => .error .notFound

/-- What is at the end of these steps. -/
def find (t : Tree) (root : String) (steps : List String) : Except Fault Node := do
  match t.get? (← t.follow (t.start root) steps) with
  | some node => .ok node
  | none => .error .notFound

/-- There is something at the path exactly as it is written. -/
def exists? (t : Tree) (path : String) : Bool :=
  path != "" && (t.find (rootOf path) (steps path)).isOk

/-- The bytes of the file at the tidy form of a path. -/
def read (t : Tree) (path : String) : Except Fault (List UInt8) := do
  match ← t.find (rootOf path) (names path) with
  | .file bytes => .ok bytes
  | .directory => .error .isDirectory

/-- Make one directory, unless it is there. -/
def makeDirectory (t : Tree) (root : String) (names : List String) : Except Fault Tree := do
  let place ← t.follow (t.start root) names
  match t.get? place with
  | some .directory => .ok t
  | some (.file _) => .error .exists
  | none => .ok (t.set place .directory)

/-- Make a directory and those it is in, as far as they are not there. The names come last first.
What was made before a failure stays. -/
def makeDirectories (t : Tree) (root : String) : List String → Except Failure Unit × Tree
  | [] => (.ok (), t)
  | name :: above =>
    let names := (name :: above).reverse
    match t.makeDirectory root names with
    | .ok made => (.ok (), made)
    | .error .notFound => match t.makeDirectories root above with
      | (.ok (), under) => match under.makeDirectory root names with
        | .ok made => (.ok (), made)
        | .error fault => (.error ⟨fault, joined root names⟩, under)
      | failed => failed
    | .error fault => (.error ⟨fault, joined root names⟩, t)

/-- Write a file in a directory that is there. -/
def write (t : Tree) (path : String) (bytes : List UInt8) : Except Failure Unit × Tree :=
  let fail (fault : Fault) : Except Failure Unit × Tree := (.error ⟨fault, tidy path⟩, t)
  match t.follow (t.start (rootOf path)) (names path) with
  | .error fault => fail fault
  | .ok place => match t.get? place with
    | some .directory => fail .isDirectory
    | _ => (.ok (), t.set place (.file bytes))

/-- Make the directories that a path is in. -/
def makeParents (t : Tree) (path : String) : Except Failure Unit × Tree :=
  t.makeDirectories (rootOf path) (names path).reverse.tail

/-- The files of `t` that are not in `old` or differ there, by their paths from the working
directory and in the order of these. Files outside the working directory are not listed. -/
def changes (old t : Tree) : List (String × List UInt8) :=
  let files := t.nodes.filterMap fun (place, node) => match node with
    | .file bytes =>
      if t.workingDirectory.isPrefixOf place ∧ old.get? place ≠ some node then
        some (joined "" (place.drop t.workingDirectory.length), bytes)
      else none
    | .directory => none
  files.mergeSort fun a b => decide (a.1 ≤ b.1)

end Tree

/-- Why a file has no text. -/
inductive TextError where
  | unreadable (fault : Fault)
  | badEncoding (error : Text.Utf8.Error)
  deriving DecidableEq, Repr

/-- The text of a file, with line feeds at the ends of its lines. -/
def Tree.readText (t : Tree) (path : String) : Except TextError String := do
  let bytes ← (t.read path).mapError .unreadable
  let chars ← (Text.Utf8.decode bytes).mapError .badEncoding
  return String.ofList (Text.lineFeeds chars)

end ElmStyle.Files
