import ElmStyle.Decimal.Layout
import ElmStyle.Elm.Identifier

/-!
# Arguments

One token of a value as an argument of an elm-css function. The shapes of tokens overlap, so they
are tried in a fixed order: a colour, a bare zero, a number at the end of the token, a keyword, a
percentage, a length. `Argument.ofToken` is `classify_token` of `twelm`, and `Argument.expression`
is what its `render_token` gives for the token.
-/
namespace ElmStyle.Elm

/-- The module that generated code refers to. -/
def cssModule : String := "Css"

inductive Argument where
  | hex (token : String)
  | zeroLength
  | number (text : String)
  | integer (text : String)
  | keyword (name : String)
  | percentage (text : String)
  | length (unit : String) (number : String)
  deriving DecidableEq, Repr

namespace Argument

/-- The elm-css function or constant that the argument refers to. -/
def name : Argument → String
  | .hex _ => "hex"
  | .zeroLength => "px"
  | .number _ => "num"
  | .integer _ => "int"
  | .keyword name => name
  | .percentage _ => "pct"
  | .length unit _ => unit

def isKeyword : Argument → Bool
  | .keyword _ => true
  | _ => false

/-- A call in parentheses. -/
def call (function argument : String) : String :=
  "(" ++ cssModule ++ "." ++ function ++ " " ++ argument ++ ")"

/-- The Elm expression of an argument. -/
def expression (a : Argument) : String :=
  match a with
  | .hex token => call a.name ("\"" ++ token ++ "\"")
  | .zeroLength => call a.name "0"
  | .number text => call a.name text
  | .integer text => call a.name text
  | .keyword name => cssModule ++ "." ++ name
  | .percentage text => call a.name text
  | .length _ text => call a.name text

/-- The properties for which a bare zero is a number and not a length. -/
def unitlessZero : List String :=
  ["opacity", "flex-shrink", "flex-grow", "flex", "order", "outline", "z-index"]

/-- Why a token is no argument. -/
inductive Reason where
  | emptyToken
  | notIdentifier (name : String)
  | noUnit
  | notANumber (text : String)
  deriving DecidableEq, Repr

def Reason.message : Reason → String
  | .emptyToken => "empty token"
  | .notIdentifier name => s!"{Text.quoted name} is not an elm-css identifier"
  | .noUnit => "number has no unit"
  | .notANumber text => s!"{Text.quoted text} is not a number"

/-- A token that is no argument. -/
structure Unclassifiable where
  token : String
  reason : Reason
  deriving DecidableEq, Repr

def Unclassifiable.message (e : Unclassifiable) : String :=
  s!"Cannot classify value token {Text.quoted e.token}: {e.reason.message}"

/-- A line break at the very end does not count for what a token ends in. -/
def dropFinalNewline (cs : List Char) : List Char :=
  if cs.getLast? = some '\n' then cs.dropLast else cs

/-- Put a minus sign in front if one ends the text before, which is read backwards. -/
def withSign (before digits : List Char) : List Char :=
  if before.head? = some '-' then '-' :: digits else digits

/-- The longest `-?d+` that ends the text. -/
def integerSuffix? (cs : List Char) : Option (List Char) :=
  let (digits, before) := cs.reverse.span Char.isDigit
  if digits = [] then none else some (withSign before digits.reverse)

/-- The longest `-?d*.d+` that ends the text. -/
def decimalSuffix? (cs : List Char) : Option (List Char) :=
  let (fraction, before) := cs.reverse.span Char.isDigit
  match before with
  | '.' :: before =>
    let (whole, before) := before.span Char.isDigit
    if fraction = [] then none
    else some (withSign before (whole.reverse ++ '.' :: fraction.reverse))
  | _ => none

/-- The text before the first percent sign that follows a digit. -/
def beforePercent? : List Char → Option (List Char)
  | [] => none
  | [_] => none
  | c :: next :: rest =>
    if c.isDigit && next == '%' then some [c] else (beforePercent? (next :: rest)).map (c :: ·)

/-- The number in front of the first percent sign that follows a digit. -/
def percentage? (cs : List Char) : Option (List Char) :=
  (beforePercent? cs).bind fun before => decimalSuffix? before <|> integerSuffix? before

/-- A digit or a point. -/
def isFigure (c : Char) : Bool := c.isDigit || c == '.'

/-- The first run of figures, with a minus sign right before it, and the letters right after it. -/
def firstRun (cs : List Char) : List Char × List Char :=
  let (before, rest) := cs.span (!isFigure ·)
  let (figures, after) := rest.span isFigure
  (withSign before.reverse figures, after.takeWhile Char.isLower)

/-- A token without figures: a keyword, if its name is one in Elm. -/
def keyword? (token : String) : Except Reason Argument :=
  let name := identifier token
  if isValueName (dropFinalNewline name.toList) then .ok (.keyword name)
  else .error (.notIdentifier name)

/-- A token with figures that are neither at its end nor a percentage: a number and its unit. -/
def length? (token : String) : Except Reason Argument :=
  let (figures, unit) := firstRun token.toList
  if unit = [] then .error .noUnit
  else match Decimal.normalize (String.ofList figures) with
    | .ok text => .ok (.length (String.ofList unit) text)
    | .error e => .error (.notANumber e.text)

/-- The shape of a token of a property's value. -/
def shape (property token : String) : Except Reason Argument :=
  let cs := token.toList
  let body := dropFinalNewline cs
  if cs = [] then .error .emptyToken
  else if cs.contains '#' then .ok (.hex token)
  else if token = "0" ∧ property ∉ unitlessZero then .ok .zeroLength
  else match decimalSuffix? body with
    | some text => .ok (.number (String.ofList text))
    | none => match integerSuffix? body with
      | some text => .ok (.integer (String.ofList text))
      | none =>
        if cs.all (!isFigure ·) then keyword? token
        else match percentage? cs with
          | some text => .ok (.percentage (String.ofList text))
          | none => length? token

/-- The argument that a token of a property's value gives. -/
def ofToken (property token : String) : Except Unclassifiable Argument :=
  (shape property token).mapError (⟨token, ·⟩)

end Argument

end ElmStyle.Elm
