/-
  Numerals from outside. The scanner makes plain numerals only, but a token or a tree can also be made by hand and
  then hold any text for a number. Such a numeral may have blanks around it, digits of any script, single underscores
  between digits, and a plus sign; a float may also have a point without digits on one side, or be infinite or no
  number.
-/
import FlatScope.Number.Decimal
import FlatScope.Text.Blank
import FlatScope.Text.DecimalDigit

namespace FlatScope.Numeral

/-- A digit of any script as an ASCII digit, and any other character as it is. -/
def plainDigit (c : Char) : Char :=
  match digitValue? c with
  | some n => Char.ofNat ('0'.toNat + n)
  | none => c

/-- A text without its underscores, each of which must stand between two digits. `behindDigit` says whether a digit
stands in front of the text. -/
def joinDigits? (behindDigit : Bool) : List Char → Option (List Char)
  | [] => some []
  | ['_'] => none
  | '_' :: c :: cs =>
    if behindDigit && c.isDigit then (joinDigits? true cs).map (c :: ·) else none
  | c :: cs => (joinDigits? c.isDigit cs).map (c :: ·)

/-- The plain form of a numeral. -/
def plain? (cs : List Char) : Option (List Char) := joinDigits? false ((trimBlanks cs).map plainDigit)

/-- The integer that a text stands for. -/
def int? (cs : List Char) : Option Int := do
  let cs ← plain? cs
  if Decimal.isDigits (Decimal.splitSign cs).2 then some (Decimal.intOfChars cs) else none

/-- A word for a value beyond the numbers, in letters of any case. -/
def word? (negative : Bool) (cs : List Char) : Option Binary64 :=
  match String.ofList (cs.map Char.toLower) with
  | "inf" | "infinity" => some (.infinity negative)
  | "nan" => some .nan
  | _ => none

/-- The floating-point value that a text stands for. -/
def real? (cs : List Char) : Option Binary64 := do
  let cs ← plain? cs
  match Decimal.ofChars? cs with
  | some d => some d.toBinary64
  | none => word? (Decimal.splitSign cs).1 (Decimal.splitSign cs).2

end FlatScope.Numeral
