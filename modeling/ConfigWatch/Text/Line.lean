import ConfigWatch.Text.Basic
/-!
Lines of a text. A line ends at a line feed, and one carriage return directly
before that line feed belongs to the end too. A carriage return anywhere else
is part of its line, and the last line needs no end.
-/
namespace ConfigWatch.Text

def lines : Text → List Text
  | [] => []
  | '\n' :: rest => [] :: lines rest
  | '\r' :: '\n' :: rest => [] :: lines rest
  | c :: rest => consFirst c (lines rest)

end ConfigWatch.Text
