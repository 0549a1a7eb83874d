/-
  Floating-point constants. A constant is stored with 64 bits: a sign and a magnitude. The magnitudes count the
  representable values upwards from zero, so that a larger magnitude is a larger number and the successor of
  a magnitude is the next representable number; the last but one stands for infinity, and the last one for what is
  no number. `ofScaled` finds the value nearest to `m * 10 ^ e`, ties to even, in exact natural arithmetic.
-/

namespace FlatScope

/-- The integer nearest to `n / d`, the even one of two that are equally near. -/
def roundHalfEven (n d : Nat) : Nat :=
  let q := n / d
  let r := n % d
  if 2 * r < d then q
  else if d < 2 * r then q + 1
  else q + q % 2

/-- `2 ^ 52`: how many magnitudes share an exponent. -/
def binade : Nat := 4503599627370496

/-- A 64-bit floating-point value: a number, an infinity, or no number. -/
structure Binary64 where
  negative : Bool
  magnitude : Nat
  le_last : magnitude ≤ 2047 * binade + 1
deriving DecidableEq, Repr

namespace Binary64

/-- The magnitude of infinity, above every finite magnitude. -/
def infinityMagnitude : Nat := 2047 * binade

/-- A value with the given sign; what is too large for the format is infinite. -/
def ofMagnitude (negative : Bool) (n : Nat) : Binary64 :=
  ⟨negative, min n infinityMagnitude, Nat.le_succ_of_le (Nat.min_le_right ..)⟩

/-- The infinity of the given sign. -/
def infinity (negative : Bool) : Binary64 := ofMagnitude negative infinityMagnitude

/-- The value that is no number. -/
def nan : Binary64 := ⟨false, infinityMagnitude + 1, Nat.le_refl _⟩

instance : Inhabited Binary64 := ⟨ofMagnitude false 0⟩

/-- The value is a finite number. -/
def isFinite (x : Binary64) : Bool := x.magnitude < infinityMagnitude

/-- The exponent `q` of a magnitude's last place: it stands for `significand * 2 ^ q`. -/
def scale (magnitude : Nat) : Int := ((magnitude / binade - 1 : Nat) : Int) - 1074

/-- The integer `m` of a magnitude that stands for `m * 2 ^ q`. -/
def significand (magnitude : Nat) : Nat := magnitude - (magnitude / binade - 1) * binade

/-- The largest `k` with `2 ^ k ≤ n / d`, for positive `n` and `d`. -/
def log2Quotient (n d : Nat) : Int :=
  let k : Int := (Nat.log2 n : Int) - Nat.log2 d
  if d * Nat.pow 2 k.toNat ≤ n * Nat.pow 2 (-k).toNat then k else k - 1

/-- The magnitude nearest to `n / d`, before the cut at infinity: the significand keeps 53 bits, and fewer
below the least normal exponent. -/
def nearestMagnitude (n d : Nat) : Nat :=
  if n = 0 then 0
  else
    let q := max (log2Quotient n d - 52) (-1074)
    (q + 1074).toNat * binade + roundHalfEven (n * Nat.pow 2 (-q).toNat) (d * Nat.pow 2 q.toNat)

/-- The value nearest to `m * 10 ^ e` with the given sign. An exponent far outside the format is decided
without building the power: `10 ^ 400` is beyond every finite value, and `m < 10 ^ (log2 m + 1)`. -/
def ofScaled (negative : Bool) (m : Nat) (e : Int) : Binary64 :=
  ofMagnitude negative <|
    if m = 0 ∨ e + Nat.log2 m < -400 then 0
    else if 400 < e then infinityMagnitude
    else nearestMagnitude (m * Nat.pow 10 e.toNat) (Nat.pow 10 (-e).toNat)

end Binary64

end FlatScope
