/-
  Line ends. In a file that is read as text, a return, alone or before a newline, counts as a newline. A text that
  is written ends every line with a newline.
-/

namespace FlatScope

/-- Every line end as a single newline. -/
def normaliseNewlines : List Char → List Char
  | '\r' :: '\n' :: cs => '\n' :: normaliseNewlines cs
  | '\r' :: cs => '\n' :: normaliseNewlines cs
  | c :: cs => c :: normaliseNewlines cs
  | [] => []

/-- Lines as one text. -/
def unlines (lines : List String) : String := String.join (lines.map (· ++ "\n"))

end FlatScope
