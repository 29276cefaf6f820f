/-! Line ends: trimming them, joining texts across them, and reading every convention as one. -/

namespace Lifecycle.Text

/-- Drops the newlines a text ends with. -/
def trimNewlines (text : String) : String :=
  String.ofList (text.toList.reverse.dropWhile (· = '\n')).reverse

def unlines (lines : List String) : String := "\n".intercalate lines

/-- A carriage return, alone or before a newline, reads as a newline. -/
def unifyNewlines : List Char → List Char
  | '\r' :: '\n' :: rest => '\n' :: unifyNewlines rest
  | '\r' :: rest => '\n' :: unifyNewlines rest
  | c :: rest => c :: unifyNewlines rest
  | [] => []

end Lifecycle.Text
