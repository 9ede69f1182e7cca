import VisualNovel.Number.Digits
import VisualNovel.Number.Double
/-!
# Six decimal places

The text of a double with six digits after the point: the exact value rounded to the nearest
millionth, a half going to the even one, with the sign of the double also on a zero.
-/
namespace VisualNovel.Number

/-- A natural with at least `width` digits. -/
def padded (width n : Nat) : String :=
  let digits := digitsOf n
  .ofList (List.replicate (width - digits.length) '0' ++ digits)

/-- A dyadic number in millionths, rounded. -/
def Dyadic.millionths (x : Dyadic) : Nat :=
  if 0 ≤ x.exponent then (x.mantissa <<< x.exponent.toNat) * 1000000
  else roundHalfEven (x.mantissa * 1000000) (1 <<< (-x.exponent).toNat)

/-- A dyadic number with six decimal places. -/
def Dyadic.fixed (x : Dyadic) : String :=
  let m := x.millionths
  (if x.negative then "-" else "") ++ padded 1 (m / 1000000) ++ "." ++ padded 6 (m % 1000000)

/-- A double with six decimal places; `nan`, `inf` and `-inf` have words. -/
def fixed (x : Float) : String :=
  match dyadic? x with
  | some d => d.fixed
  | none => if x.isNaN then "nan" else if x < 0 then "-inf" else "inf"

end VisualNovel.Number
