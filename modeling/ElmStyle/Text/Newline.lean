/-!
# Line breaks of files

A file may end its lines with a line feed, a carriage return, or both. Its text has line feeds only.
-/
namespace ElmStyle.Text

/-- Every carriage return, alone or before a line feed, becomes one line feed. -/
def lineFeeds : List Char → List Char
  | [] => []
  | '\r' :: '\n' :: rest => '\n' :: lineFeeds rest
  | c :: rest => (if c = '\r' then '\n' else c) :: lineFeeds rest

end ElmStyle.Text
