import VisualNovel.Number.Digits
import VisualNovel.Number.Double
/-!
# Shortest decimals

The text of a double has the fewest digits that read back as the double, and of these the ones
nearest to it. The reals that read back as a double lie between the middles to its two neighbours;
the middles belong to it if its mantissa is even. So the search goes over ever finer grids of
decimals and tests, on each, the two points around the double.

Such a text is positional if its first digit stands for 10 ^ -4 up to 10 ^ 15, and has a power of
ten behind it otherwise.
-/
namespace VisualNovel.Number

/-- The value `digits · 10 ^ exponent`. -/
structure Decimal where
  digits : Nat
  exponent : Int
  deriving DecidableEq, Repr

/-- A dyadic magnitude in units of `10 ^ k / 4`, as a numerator and a denominator; `quarters` is the
mantissa in quarters. -/
def Dyadic.inUnits (x : Dyadic) (k : Int) (quarters : Nat) : Nat × Nat :=
  ((quarters <<< x.exponent.toNat) * Nat.pow 10 (-k).toNat,
    (4 <<< (-x.exponent).toNat) * Nat.pow 10 k.toNat)

/-- Whether `c · 10 ^ k` reads back as a double. -/
def Dyadic.covers (x : Dyadic) (k : Int) (c : Nat) : Bool :=
  -- below a power of two the neighbour is only half as far
  let below := if x.mantissa = 1 <<< 52 ∧ -1074 < x.exponent then 1 else 2
  let (low, d) := x.inUnits k (4 * x.mantissa - below)
  let (high, _) := x.inUnits k (4 * x.mantissa + 2)
  if x.mantissa % 2 = 0 then low ≤ c * d && c * d ≤ high else low < c * d && c * d < high

/-- The point of the grid of `10 ^ k` that reads back as a double and is nearest to it. -/
def Dyadic.onGrid? (x : Dyadic) (k : Int) : Option Nat :=
  let (n, d) := x.inUnits k (4 * x.mantissa)
  let nearest := roundHalfEven n d
  let lower := n / d
  if x.covers k nearest then some nearest
  else if x.covers k lower then some lower
  else if x.covers k (lower + 1) then some (lower + 1)
  else none

/-- The number of digits in front of the point; negative for leading zeros behind it. -/
def Dyadic.magnitude (x : Dyadic) : Int :=
  -- no double is below `10 ^ -400`
  let (n, d) := x.inUnits (-400) (4 * x.mantissa)
  ((digitsOf (n / d)).length : Int) - 400

/-- The shortest decimal that reads back as a double. -/
def Dyadic.shortest (x : Dyadic) : Decimal :=
  let point (size : Nat) : Option Decimal :=
    let k := x.magnitude - (size + 1)
    (x.onGrid? k).map (⟨·, k⟩)
  ((List.range 17).findSome? point).getD ⟨0, 0⟩

/-- The digits of a decimal without zeros at the end, and the number of digits in front of the
point. -/
def Decimal.normalize (x : Decimal) : List Char × Int :=
  let ds := digitsOf x.digits
  let back := ds.reverse.dropWhile (· = '0')
  (back.reverse, ds.length + x.exponent)

/-- Digits with a point behind the first `point` of them. -/
def positional (ds : List Char) (point : Int) : List Char :=
  if point ≤ 0 then '0' :: '.' :: List.replicate (-point).toNat '0' ++ ds
  else if ds.length ≤ point then
    ds ++ List.replicate (point - ds.length).toNat '0' ++ ['.', '0']
  else ds.take point.toNat ++ '.' :: ds.drop point.toNat

/-- Digits with a power of ten behind them; the power has at least two digits. -/
def scientific (ds : List Char) (point : Int) : List Char :=
  let power := point - 1
  let tail := if ds.length ≤ 1 then ds else ds.take 1 ++ '.' :: ds.drop 1
  let digits := digitsOf power.natAbs
  tail ++ ['e', if power < 0 then '-' else '+'] ++
    List.replicate (2 - digits.length) '0' ++ digits

/-- The text of a dyadic number. -/
def Dyadic.text (x : Dyadic) : String :=
  let magnitude :=
    if x.mantissa = 0 then ['0', '.', '0']
    else
      let (ds, point) := x.shortest.normalize
      if -4 < point ∧ point ≤ 16 then positional ds point else scientific ds point
  .ofList (if x.negative then '-' :: magnitude else magnitude)

/-- The text of a double; `nan`, `inf` and `-inf` have words. -/
def shortest (x : Float) : String :=
  match dyadic? x with
  | some d => d.text
  | none => if x.isNaN then "nan" else if x < 0 then "-inf" else "inf"

end VisualNovel.Number
