import ElmStyle.Text.Upper

/-!
# Names of elm-css

The functions and constants of elm-css are the hyphenated names of CSS in camel case. `identifier`
is `to_identifier` of `twelm`.
-/
namespace ElmStyle.Elm

/-- Each hyphen and the character after it give that character in upper case. A hyphen at the end
of a line stays. -/
def camelCase : List Char → List Char
  | [] => []
  | '-' :: c :: rest =>
    if c = '\n' then '-' :: camelCase (c :: rest) else Text.upper c ++ camelCase rest
  | c :: rest => c :: camelCase rest

/-- The elm-css name of a hyphenated CSS name. One name has a hump that CSS does not show. -/
def identifier (name : String) : String :=
  if name = "nowrap" then "noWrap" else String.ofList (camelCase name.toList)

/-- A character of an Elm name after its first. -/
def isNameChar (c : Char) : Bool := c.isAlphanum || c == '_'

/-- A name of an Elm value: a lower-case letter, then letters, digits and underscores. -/
def isValueName : List Char → Bool
  | [] => false
  | c :: rest => c.isLower && rest.all isNameChar

end ElmStyle.Elm
