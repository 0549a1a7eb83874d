/-
  Quoted text, as complaints show it. The quote is single unless the text has a single quote and no double one.
  The backslash, the quote itself, newline, return and tab are written with a backslash, and an unprintable
  character by its code point in hexadecimal.
-/
import FlatScope.Text.Printable

namespace FlatScope

/-- A number in hexadecimal with at least `width` digits. -/
def hex (width n : Nat) : String :=
  let digits := String.ofList (Nat.toDigits 16 n)
  "".pushn '0' (width - digits.length) ++ digits

namespace Quoted

/-- A character inside quotes. -/
def escape (quote c : Char) : String :=
  if c = quote ∨ c = '\\' then "\\" ++ c.toString
  else if c = '\n' then "\\n"
  else if c = '\r' then "\\r"
  else if c = '\t' then "\\t"
  else if isPrintable c then c.toString
  else if c.toNat < 0x100 then "\\x" ++ hex 2 c.toNat
  else if c.toNat < 0x10000 then "\\u" ++ hex 4 c.toNat
  else "\\U" ++ hex 8 c.toNat

/-- The quote that needs the fewest escapes. -/
def quoteFor (s : String) : Char :=
  if s.contains '\'' ∧ ¬ s.contains '"' then '"' else '\''

end Quoted

/-- The text between quotes, with escapes. -/
def quoted (s : String) : String :=
  let quote := Quoted.quoteFor s
  quote.toString ++ String.join (s.toList.map (Quoted.escape quote)) ++ quote.toString

end FlatScope
