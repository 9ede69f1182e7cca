/-!
# Decimal digits

Naturals as lists of decimal digits.

Results:
* `ofDigits_append_one`: one digit more is ten times the value and that digit.
-/
namespace VisualNovel.Number

/-- The natural that decimal digits write. -/
def ofDigits (ds : List Char) : Nat := ds.foldl (fun n d => n * 10 + (d.toNat - '0'.toNat)) 0

/-- The decimal digits of a natural. -/
def digitsOf (n : Nat) : List Char := Nat.toDigits 10 n

/-- One digit more is ten times the value and that digit. -/
theorem ofDigits_append_one (ds : List Char) (d : Char) :
    ofDigits (ds ++ [d]) = ofDigits ds * 10 + (d.toNat - '0'.toNat) := by
  simp [ofDigits, List.foldl_append]

end VisualNovel.Number
