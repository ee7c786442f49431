import ElmStyle.Text.CodePoint
import ElmStyle.Text.Printable

/-!
# Quoted text

How messages quote a piece of text. Single quotes enclose it, unless it holds a single quote and no
double quote. A backslash, the enclosing quote and the usual line controls are escaped by one
letter; any other unprintable character is written by its code point in hexadecimal.
-/
namespace ElmStyle.Text

def singleQuote : Char := '\x27'

def doubleQuote : Char := '\x22'

/-- One character of a text enclosed in `mark`. -/
def quotedChar (mark c : Char) : List Char :=
  if c = mark ∨ c = '\\' then ['\\', c]
  else if c = '\n' then ['\\', 'n']
  else if c = '\r' then ['\\', 'r']
  else if c = '\t' then ['\\', 't']
  else if isPrintable c then [c]
  else codePointEscape (codePoint c)

/-- The quote that encloses the text. -/
def quoteMark (cs : List Char) : Char :=
  if cs.contains singleQuote && !cs.contains doubleQuote then doubleQuote else singleQuote

/-- The text as messages quote it. -/
def quoted (s : String) : String :=
  let mark := quoteMark s.toList
  String.ofList (mark :: s.toList.flatMap (quotedChar mark) ++ [mark])

end ElmStyle.Text
