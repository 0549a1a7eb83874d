/-
  Decimal text. `Decimal` is a sign, digits and a power of ten as they are written down; reading one takes an
  optional sign, digits with an optional point among them, and an optional exponent, and nothing else.
-/
import FlatScope.Number.Binary64

namespace FlatScope

/-- The number `digits * 10 ^ exponent`, with a sign of its own so that minus zero can be written. -/
structure Decimal where
  negative : Bool
  digits : Nat
  exponent : Int
deriving DecidableEq, Repr, Inhabited

namespace Decimal

/-- The value of a digit. -/
def digitValue (c : Char) : Nat := c.toNat - '0'.toNat

/-- The natural number a run of digits stands for. -/
def natOfDigits (cs : List Char) : Nat := cs.foldl (fun n c => 10 * n + digitValue c) 0

/-- An integer: digits, perhaps behind a sign. -/
def intOfChars : List Char → Int
  | '-' :: cs => -(natOfDigits cs : Int)
  | '+' :: cs => natOfDigits cs
  | cs => natOfDigits cs

/-- A leading sign and what follows it. -/
def splitSign : List Char → Bool × List Char
  | '-' :: cs => (true, cs)
  | '+' :: cs => (false, cs)
  | cs => (false, cs)

/-- The digits behind a point, if there is one, and what follows them. -/
def splitFraction : List Char → List Char × List Char
  | '.' :: cs => (cs.takeWhile Char.isDigit, cs.dropWhile Char.isDigit)
  | cs => ([], cs)

/-- Some digits and nothing else. -/
def isDigits (cs : List Char) : Bool := !cs.isEmpty && cs.all Char.isDigit

/-- The exponent at the end of a number, zero if nothing stands there. -/
def exponent? : List Char → Option Int
  | [] => some 0
  | c :: cs =>
    if (c = 'e' ∨ c = 'E') ∧ isDigits (splitSign cs).2 then some (intOfChars cs) else none

/-- Reads a decimal number, which has a digit in front of or behind its point. -/
def ofChars? (cs : List Char) : Option Decimal := do
  let (negative, body) := splitSign cs
  let whole := body.takeWhile Char.isDigit
  let (fraction, rest) := splitFraction (body.dropWhile Char.isDigit)
  let exponent ← exponent? rest
  if whole.isEmpty && fraction.isEmpty then none
  else some ⟨negative, natOfDigits (whole ++ fraction), exponent - fraction.length⟩

/-- The floating-point value nearest to a decimal number. -/
def toBinary64 (d : Decimal) : Binary64 := .ofScaled d.negative d.digits d.exponent

end Decimal

end FlatScope
