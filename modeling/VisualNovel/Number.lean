import VisualNovel.Misfit
import VisualNovel.Number.Shortest
/-!
# Numbers

A number that comes from outside is an integer or a double, and stays what it is where it is only
handed on. Arithmetic on two integers is exact; as soon as a double takes part, both are doubles, so
an integer that is too great for one does not fit. Order compares the exact values.
-/
namespace VisualNovel

/-- An integer or a double. -/
inductive Number where
  | int (n : Int)
  | real (x : Float)
  deriving DecidableEq, Inhabited

namespace Number

/-- A double that is not beyond all doubles. -/
def finite (x : Float) : Except Misfit Float := if x.isInf then .error .range else .ok x

/-- The double a number is, or rounds to. -/
def toFloat : Number → Except Misfit Float
  | int n => finite (ofInt n)
  | real x => .ok x

/-- The integer part, toward zero. -/
def truncate : Number → Except Misfit Int
  | int n => .ok n
  | real x =>
    match trunc? x with
    | some n => .ok n
    | none => .error (if x.isNaN then .value else .range)

/-- The smallest integer not below a finite double. -/
def ceil? (x : Float) : Option Int := (floor? (-x)).map (- ·)

/-- Order by exact value; nothing compares with a number that is not one. -/
def le : Number → Number → Bool
  | int a, int b => a ≤ b
  | real a, real b => a ≤ b
  | int a, real b =>
    match floor? b with
    | some n => a ≤ n
    | none => 0 < b
  | real a, int b =>
    match ceil? a with
    | some n => n ≤ b
    | none => a < 0

/-- Strict order by exact value. -/
def lt : Number → Number → Bool
  | int a, int b => a < b
  | real a, real b => a < b
  | int a, real b =>
    match ceil? b with
    | some n => a < n
    | none => 0 < b
  | real a, int b =>
    match floor? a with
    | some n => n < b
    | none => a < 0

/-- Whether two numbers have the same value. -/
def same (a b : Number) : Bool := le a b && le b a

/-- The exact operation on two integers, the one on doubles otherwise. -/
def combine (exact : Int → Int → Int) (rounded : Float → Float → Float) :
    Number → Number → Except Misfit Number
  | int a, int b => .ok (int (exact a b))
  | a, b => do return real (rounded (← a.toFloat) (← b.toFloat))

/-- The sum. -/
def add : Number → Number → Except Misfit Number := combine (· + ·) (· + ·)

/-- The difference. -/
def sub : Number → Number → Except Misfit Number := combine (· - ·) (· - ·)

/-- The quotient, which is always a double. -/
def div : Number → Number → Except Misfit Number
  | int a, int b =>
    if b = 0 then .error .zero
    else (finite (nearest (decide (a < 0) != decide (b < 0)) a.natAbs b.natAbs)).map real
  | a, b => do
    let a ← a.toFloat
    let b ← b.toFloat
    if b == 0 then .error .zero else .ok (real (a / b))

/-- The text of a number: the digits of an integer, the shortest decimal of a double. -/
def text : Number → String
  | int n => toString n
  | real x => shortest x

end Number
end VisualNovel
