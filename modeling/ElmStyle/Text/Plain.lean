/-!
# Text without terminal styling

A styling sequence is an escape character, an opening bracket, any number of parameters and one
letter. Lines that are printed for a reader lose them.
-/
namespace ElmStyle.Text

def stylingStart : Char := '\x1b'

def isStylingParameter (c : Char) : Bool :=
  c.isDigit || c == ';' || c == '?'

/-- Drop the styling sequences. `held` is the start of a possible sequence, last character first; it
is let go when the sequence breaks off. -/
def dropStyling (held : List Char) : List Char → List Char
  | [] => held.reverse
  | c :: rest =>
    if c = stylingStart then held.reverse ++ dropStyling [c] rest
    else match held with
      | [] => c :: dropStyling [] rest
      | [_] => if c = '[' then dropStyling (c :: held) rest
          else held.reverse ++ c :: dropStyling [] rest
      | _ :: _ :: _ =>
        if isStylingParameter c then dropStyling (c :: held) rest
        else if c.isAlpha then dropStyling [] rest
        else held.reverse ++ c :: dropStyling [] rest

/-- The text without its styling sequences. -/
def plain (s : String) : String :=
  String.ofList (dropStyling [] s.toList)

end ElmStyle.Text
