/-!
# Halves of pairs

Characters above U+FFFF are also written as a pair of two code units. A unit that is half of a pair
may stand alone in what comes from outside, but is no character; the private characters from
U+10F000 on stand for such halves.

Results:
* `halfCode?_halfChar`: the character for a half tells which half it is.
-/
namespace VisualNovel.Text

/-- The code unit of the first half. -/
def firstUnit : Nat := 0xd800

/-- The number of halves. -/
def halves : Nat := 0x800

/-- The code of the character for the first half. -/
def firstStand : Nat := 0x10f000

/-- The character that stands for the half with a code unit. -/
def halfChar (unit : Nat) : Char := Char.ofNat (firstStand + (unit - firstUnit))

/-- The code unit of the half that a character stands for. -/
def halfCode? (c : Char) : Option Nat :=
  if firstStand ≤ c.toNat ∧ c.toNat < firstStand + halves then
    some (firstUnit + (c.toNat - firstStand))
  else none

/-- The code of a character, or of the half it stands for. -/
def codeOf (c : Char) : Nat := (halfCode? c).getD c.toNat

/-- Whether a text holds characters only, and no half of a pair. -/
def isWhole (s : String) : Bool := s.toList.all fun c => (halfCode? c).isNone

/-- Whether a text can be written as bytes: halves cannot, but those from U+DC80 to U+DCFF, which
stand for bytes themselves. -/
def isWritable (s : String) : Bool :=
  s.toList.all fun c => (halfCode? c).all fun unit => 0xdc80 ≤ unit && unit ≤ 0xdcff

theorem toNat_ofNat {n : Nat} (h : n.isValidChar) : (Char.ofNat n).toNat = n := by
  rw [Char.ofNat, dif_pos h]
  rfl

/-- The character for a half tells which half it is. -/
theorem halfCode?_halfChar {unit : Nat} (h : firstUnit ≤ unit) (h' : unit < firstUnit + halves) :
    halfCode? (halfChar unit) = some unit := by
  have stand : firstStand = 0x10f000 := rfl
  have first : firstUnit = 0xd800 := rfl
  have count : halves = 0x800 := rfl
  have valid : (firstStand + (unit - firstUnit)).isValidChar := Or.inr ⟨by omega, by omega⟩
  rw [halfChar, halfCode?, toNat_ofNat valid, if_pos ⟨by omega, by omega⟩, Option.some.injEq]
  omega

end VisualNovel.Text
