import ElmStyle.Elm.Identifier
import ElmStyle.Text.Quoted

/-!
# Names of definitions

The class name of a utility class may hold any character. Its definition gets a name that Elm
accepts, in one of two styles. `definitionName` is `to_elm_name` of `twelm`.
-/
namespace ElmStyle.Elm

inductive NameStyle where
  | snake | camel
  deriving DecidableEq, Repr

namespace NameStyle

def all : List NameStyle := [.snake, .camel]

def name : NameStyle → String
  | .snake => "snake"
  | .camel => "camel"

def ofName? (s : String) : Option NameStyle := all.find? (·.name = s)

/-- A style that does not exist. -/
structure Unknown where
  given : String
  deriving DecidableEq, Repr

def Unknown.message (e : Unknown) : String :=
  let names := ", ".intercalate (all.map fun style => Text.quoted style.name)
  s!"Unknown name style {Text.quoted e.given}, expected one of ({names})"

def ofName (s : String) : Except Unknown NameStyle :=
  match ofName? s with
  | some style => .ok style
  | none => .error ⟨s⟩

end NameStyle

/-- A hyphen at the start of a class name says that its value is negative. -/
def spellNegative : List Char → List Char
  | '-' :: rest => "neg_".toList ++ rest
  | cs => cs

/-- The characters that have a spelling, in the order in which they are replaced. -/
def spellings : List (Char × String) := [(':', "__"), ('/', "_over_"), ('.', "_dot_"), ('%', "pct")]

/-- Put the spelling in the place of a character. -/
def spell (cs : List Char) (spelling : Char × String) : List Char :=
  cs.flatMap fun c => if c = spelling.1 then spelling.2.toList else [c]

/-- Spell what has a spelling; an underscore stands for any other character that no name may hold.
-/
def sanitize (cs : List Char) : List Char :=
  (spellings.foldl spell cs).map fun c => if isNameChar c then c else '_'

/-- Underscores give an upper-case hump, and those at the end give one underscore. `pending` says
that underscores have been passed. -/
def humps (pending : Bool) : List Char → List Char
  | [] => if pending then ['_'] else []
  | c :: rest =>
    if c = '_' then humps true rest
    else (if pending then c.toUpper else c) :: humps false rest

/-- A name that starts with no lower-case letter gets `lead` in front. -/
def withLead (lead : String) (cs : List Char) : List Char :=
  if (cs.head?.any Char.isLower) then cs else lead.toList ++ cs

/-- The name of the definition of a class. -/
def definitionName (className affix : String) (style : NameStyle) : String :=
  let plain := sanitize (affix.toList ++ spellNegative className.toList)
  String.ofList <| match style with
    | .snake => withLead "c_" plain
    | .camel => withLead "c" (humps false plain)

end ElmStyle.Elm
