import ElmStyle.Decimal.Layout
import ElmStyle.Json.Members

/-!
# JSON values

A JSON value keeps what a message may have to show: integers apart from other numbers, and the
members of an object in the order of their first appearance.
-/
namespace ElmStyle.Json

inductive Value where
  | null
  | bool (b : Bool)
  | integer (n : Int)
  | number (x : Decimal.Binary64)
  | string (s : String)
  | array (items : List Value)
  | object (members : List (String × Value))
  deriving Repr, Inhabited

namespace Value

/-- The strings of a list of strings. -/
def strings? : List Value → Option (List String)
  | [] => some []
  | .string s :: rest => (strings? rest).map (s :: ·)
  | _ :: _ => none

def boolText (b : Bool) : String := if b then "True" else "False"

mutual

/-- The value as messages show it. -/
def text : Value → String
  | .null => "None"
  | .bool b => boolText b
  | .integer n => if n < 0 then "-" ++ Nat.repr n.natAbs else Nat.repr n.natAbs
  | .number x => x.fullText
  | .string s => Text.quoted s
  | .array items => "[" ++ ", ".intercalate (itemTexts items) ++ "]"
  | .object fields => "\x7b" ++ ", ".intercalate (memberTexts fields) ++ "\x7d"

def itemTexts : List Value → List String
  | [] => []
  | item :: rest => item.text :: itemTexts rest

def memberTexts : List (String × Value) → List String
  | [] => []
  | (name, value) :: rest => (Text.quoted name ++ ": " ++ value.text) :: memberTexts rest

end

end Value

end ElmStyle.Json
