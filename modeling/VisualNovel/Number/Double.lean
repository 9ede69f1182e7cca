/-!
# Doubles as exact numbers

A finite double is an integer times a power of two. This module takes a double apart into that
form, rounds a ratio of naturals to the nearest double with ties to even, and truncates a double
to an integer.
-/
namespace VisualNovel.Number

/-- The value `± mantissa · 2 ^ exponent`. -/
structure Dyadic where
  negative : Bool
  mantissa : Nat
  exponent : Int
  deriving DecidableEq, Repr

/-- The exact value of a finite double. -/
def dyadic? (x : Float) : Option Dyadic :=
  let bits := x.toBits.toNat
  let exponent : Nat := (bits >>> 52) % 2048
  let fraction := bits % (1 <<< 52)
  let negative := bits >>> 63 == 1
  if exponent = 0x7ff then none
  else if exponent = 0 then some ⟨negative, fraction, -1074⟩
  else some ⟨negative, (1 <<< 52) + fraction, exponent - 1075⟩

/-- The quotient of two naturals rounded to the nearest natural, a half going to the even one. -/
def roundHalfEven (n d : Nat) : Nat :=
  let q := n / d
  let r := n % d
  if 2 * r < d then q else if d < 2 * r then q + 1 else q + q % 2

/-- The double nearest to `n / d`, for a positive `d`; ties go to the even mantissa. -/
def nearest (negative : Bool) (n d : Nat) : Float :=
  let size : Int := (n.log2 : Int) - d.log2
  -- 2 ^ (size - 1) < n / d < 2 ^ (size + 1)
  let scaled (e : Int) : Nat × Nat :=
    if 0 ≤ e then (n, d <<< e.toNat) else (n <<< (-e).toNat, d)
  let low := max (size - 53) (-1074)
  let exponent := if (scaled low).1 < (scaled low).2 <<< 53 then low else low + 1
  let q := roundHalfEven (scaled exponent).1 (scaled exponent).2
  let x := if n = 0 then 0 else if 1100 < size then 1 / 0 else (Float.ofNat q).scaleB exponent
  if negative then -x else x

/-- The double nearest to an integer. -/
def ofInt (n : Int) : Float := nearest (n < 0) n.natAbs 1

/-- The double nearest to `digits · 10 ^ exponent`. -/
def ofDecimal (negative : Bool) (digits : Nat) (exponent : Int) : Float :=
  let magnitude : Int := (Nat.toDigits 10 digits).length + exponent
  if digits = 0 then nearest negative 0 1
  else if 400 < magnitude then nearest negative (1 <<< 1100) 1
  else if magnitude < -400 then nearest negative 0 1
  else if 0 ≤ exponent then nearest negative (digits * Nat.pow 10 exponent.toNat) 1
  else nearest negative digits (Nat.pow 10 (-exponent).toNat)

/-- The integer part of a dyadic number, toward zero. -/
def Dyadic.trunc (x : Dyadic) : Int :=
  let n : Nat :=
    if 0 ≤ x.exponent then x.mantissa <<< x.exponent.toNat
    else x.mantissa >>> (-x.exponent).toNat
  if x.negative then -n else n

/-- Whether a dyadic number is an integer. -/
def Dyadic.isInt (x : Dyadic) : Bool :=
  0 ≤ x.exponent || x.mantissa % (1 <<< (-x.exponent).toNat) == 0

/-- The greatest integer not above a dyadic number. -/
def Dyadic.floor (x : Dyadic) : Int :=
  if x.negative && !x.isInt then x.trunc - 1 else x.trunc

/-- The integer part of a finite double, toward zero. -/
def trunc? (x : Float) : Option Int := (dyadic? x).map Dyadic.trunc

/-- The greatest integer not above a finite double. -/
def floor? (x : Float) : Option Int := (dyadic? x).map Dyadic.floor

end VisualNovel.Number
