/-!
# Cutting text into pieces

`pieces` cuts at every character of a class and keeps the empty pieces, so a text with `n` cuts has
`n + 1` pieces. `strip` drops the characters of a class from both ends.
-/
namespace ElmStyle.Text

/-- Put characters in front of the first piece. -/
def pushFront (front : List Char) : List (List Char) → List (List Char)
  | [] => [front]
  | piece :: rest => (front ++ piece) :: rest

/-- The maximal runs between the characters that satisfy `cut`, empty runs included. -/
def pieces (cut : Char → Bool) : List Char → List (List Char)
  | [] => [[]]
  | c :: rest => if cut c then [] :: pieces cut rest else pushFront [c] (pieces cut rest)

/-- Drop the characters of a class from both ends. -/
def stripBy (drop : Char → Bool) (cs : List Char) : List Char :=
  ((cs.dropWhile drop).reverse.dropWhile drop).reverse

end ElmStyle.Text
