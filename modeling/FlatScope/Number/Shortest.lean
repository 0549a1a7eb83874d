/-
  The shortest decimal text of a floating-point value. The real numbers that are read as a given value form an
  interval around it, which reaches half way to the neighbours and has its ends in it when the significand is
  even. `shortest` takes the coarsest power of ten that has a multiple in this interval, and of two such
  multiples the nearer one, the even one on a tie. `Layout` says how the digits are laid out.
-/
import FlatScope.Number.Decimal

namespace FlatScope

namespace Binary64

/-- The interval of a magnitude in quarters of its last place: lower end, value and upper end. Below a power
of two the neighbour is only half as far away. -/
def quarters (magnitude : Nat) : Nat × Nat × Nat :=
  let m := significand magnitude
  let below := if m = binade ∧ -1074 < scale magnitude then 1 else 2
  (4 * m - below, 4 * m, 4 * m + 2)

/-- The multiple of `10 ^ k` that is read as the given magnitude and nearest to it, as the factor `c` of
`c * 10 ^ k`, if there is one. Only the two neighbours of the value on this grid can be in the interval. -/
def onGrid (magnitude : Nat) (k : Int) : Option Nat :=
  let (low, mid, high) := quarters magnitude
  let q := scale magnitude - 2
  let n := Nat.pow 2 q.toNat * Nat.pow 10 (-k).toNat
  let d := Nat.pow 2 (-q).toNat * Nat.pow 10 k.toNat
  let closed := significand magnitude % 2 = 0
  let c := mid * n / d
  let lowIn := if closed then low * n ≤ c * d else low * n < c * d
  let highIn := if closed then (c + 1) * d ≤ high * n else (c + 1) * d < high * n
  if lowIn ∧ highIn then
    some (roundHalfEven (mid * n) d)
  else if lowIn then some c
  else if highIn then some (c + 1)
  else none

/-- Tries the grids `10 ^ k`, `10 ^ (k - 1)` and so on, at most `tries` of them; the last one is taken as
it is. -/
def coarsest (magnitude : Nat) (k : Int) : (tries : Nat) → Nat × Int
  | 0 => ((onGrid magnitude k).getD 0, k)
  | tries + 1 =>
    match onGrid magnitude k with
    | some c => (c, k)
    | none => coarsest magnitude (k - 1) tries

/-- A power of ten above the value: `log10 2` is a little less than 0.30103. -/
def topExponent (magnitude : Nat) : Int :=
  (((Nat.log2 (significand magnitude) : Int) + scale magnitude + 1) * 30103) / 100000 + 1

/-- The shortest decimal number that is read as a finite value. -/
def shortest (x : Binary64) : Decimal :=
  if x.magnitude = 0 then ⟨x.negative, 0, 0⟩
  else
    let (c, k) := coarsest x.magnitude (topExponent x.magnitude) 20
    ⟨x.negative, c, k⟩

end Binary64

/-- How a decimal number is laid out. -/
structure Layout where
  /-- The least exponent of the leading digit that is written without an exponent. -/
  plainFrom : Int
  /-- The least exponent from there on that is written with one. -/
  plainBelow : Int
  /-- The least number of digits of a written exponent. -/
  exponentWidth : Nat

namespace Layout

/-- The digits of an exponent, with its sign in front. -/
def exponentText (style : Layout) (e : Int) : String :=
  let digits := toString e.natAbs
  (if e < 0 then "-" else "+") ++ "".pushn '0' (style.exponentWidth - digits.length) ++ digits

/-- The text of `digits * 10 ^ exponent` without its sign. -/
def magnitudeText (style : Layout) (digits : Nat) (exponent : Int) : String :=
  let text := toString digits
  let leading := exponent + text.length - 1
  if leading < style.plainFrom ∨ style.plainBelow ≤ leading then
    let fraction := String.ofList (text.toList.drop 1)
    String.ofList (text.toList.take 1) ++ (if fraction = "" then "" else "." ++ fraction) ++ "e"
      ++ style.exponentText leading
  else if 0 ≤ exponent then text.pushn '0' exponent.toNat ++ ".0"
  else if 0 ≤ leading then
    String.ofList (text.toList.take (leading + 1).toNat) ++ "."
      ++ String.ofList (text.toList.drop (leading + 1).toNat)
  else "0.".pushn '0' (-leading - 1).toNat ++ text

end Layout

/-- Float constants are written positionally for leading exponents from -4 to 15, and otherwise with a signed
exponent of at least two digits; there is always a digit behind the point. -/
def constantLayout : Layout where
  plainFrom := -4
  plainBelow := 16
  exponentWidth := 2

/-- The text of a float constant. What is no number has no sign. -/
def Binary64.text (x : Binary64) : String :=
  let sign := if x.negative then "-" else ""
  if x.isFinite then
    let d := x.shortest
    sign ++ (if d.digits = 0 then "0.0" else constantLayout.magnitudeText d.digits d.exponent)
  else if x.magnitude = infinityMagnitude then sign ++ "inf"
  else "nan"

end FlatScope
