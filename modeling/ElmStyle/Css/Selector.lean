import ElmStyle.Text.Blank

/-!
# Class selectors

A selector is a row of compounds with blanks and combinators between them. A backslash escapes the
character after it, so that it neither separates compounds nor starts a pseudo-selector. The class
that a selector styles is its last compound that starts with a point, and the state it styles is
the pseudo-selector at the end of that compound. `styled` is `fix_class` of `twelm`.
-/
namespace ElmStyle.Css.Selector

/-- A character that separates compounds unless it is escaped. -/
def isBreak (c : Char) : Bool :=
  Text.isBlank c || c == '>' || c == '+' || c == '~' || c == ','

/-- The selector cut at its breaks, with escapes as they are written. No escape reaches over the
end of a line. -/
def cut : List Char → List (List Char)
  | [] => [[]]
  | '\\' :: c :: rest =>
    if c = '\n' then Text.pushFront ['\\'] (cut (c :: rest))
    else Text.pushFront ['\\', c] (cut rest)
  | c :: rest => if isBreak c then [] :: cut rest else Text.pushFront [c] (cut rest)

/-- The compounds of a selector. -/
def compounds (cs : List Char) : List (List Char) :=
  (cut (Text.stripBy Text.isBlank cs)).filter (!·.isEmpty)

/-- The name of a compound that starts with a point. -/
def className? : List Char → Option (List Char)
  | '.' :: name => some name
  | _ => none

/-- The last class among the compounds, or else the first compound, as it is written. -/
def target (compounds : List (List Char)) : List Char :=
  match (compounds.filterMap className?).getLast? with
  | some name => name
  | none => compounds.headD []

/-- The characters of a pseudo-selector's name, the first of which is a letter. -/
def isStateChar (c : Char) : Bool := c.isLower || c == '-'

/-- What stands before the colons of a pseudo-selector, where `before` is the text in front of its
last colon, read backwards. A colon right after a backslash starts none. -/
def beforeColons? (before : List Char) : Option (List Char) :=
  match before with
  | ':' :: '\\' :: _ => some before
  | ':' :: rest => some rest
  | '\\' :: _ => none
  | _ => some before

/-- The text before a pseudo-selector at the end, and its name. -/
def splitState (raw : List Char) : List Char × Option (List Char) :=
  let back := raw.reverse
  let state := (back.takeWhile isStateChar).reverse
  match state, back.dropWhile isStateChar with
  | first :: _, ':' :: before =>
    if first.isLower then
      match beforeColons? before with
      | some rest => (rest.reverse, some state)
      | none => (raw, none)
    else (raw, none)
  | _, _ => (raw, none)

/-- Every escape gives the character it escapes. -/
def unescape : List Char → List Char
  | [] => []
  | '\\' :: c :: rest => if c = '\n' then '\\' :: unescape (c :: rest) else c :: unescape rest
  | c :: rest => c :: unescape rest

/-- The class that a selector styles and the state in which it does. -/
structure Styled where
  className : String
  pseudo : Option String
  deriving DecidableEq, Repr

def styled (selector : String) : Styled :=
  let (name, state) := splitState (target (compounds selector.toList))
  ⟨String.ofList (unescape name), state.map String.ofList⟩

end ElmStyle.Css.Selector
