import VisualNovel.Json.Value
/-!
# Slots

The number of choices that a view has room for. Mostly it is an integer, but a setting may be any
value, and what cannot be done with it shows only where it is used: to compare it with a number of
choices, and to cut choices off.

Results:
* `length_firstSlots`: from zero on, as many items are left as there are slots for.
-/
namespace VisualNovel

/-- The room for choices. -/
inductive Slots where
  /-- So many; a negative number leaves out that many at the end. -/
  | count (n : Int)
  /-- A double compares with numbers of choices, but cuts nothing off. -/
  | part (x : Float)
  /-- No number at all leaves everything, but does not compare. -/
  | unset
  /-- Anything else is good for nothing. -/
  | unfit
  deriving DecidableEq

/-- The items that a number of slots has room for; a negative number leaves out that many at the
end. -/
def firstSlots (slots : Int) (xs : List α) : List α :=
  if 0 ≤ slots then xs.take slots.toNat else xs.take (xs.length - slots.natAbs)

/-- From zero on, as many items are left as there are slots for. -/
theorem length_firstSlots {slots : Int} (h : 0 ≤ slots) (xs : List α) :
    (firstSlots slots xs).length = min slots.toNat xs.length := by
  simp [firstSlots, h]

namespace Slots

/-- Reads a setting. -/
def ofJson : Json → Slots
  | .int n => count n
  | .bool b => count (if b then 1 else 0)
  | .real x => part x
  | .null => unset
  | _ => unfit

/-- Whether there are fewer slots than choices. -/
def areFewerThan (choices : Nat) : Slots → Except Misfit Bool
  | count n => .ok (decide (n < choices))
  | part x => .ok (Number.lt (.real x) (.int choices))
  | unset | unfit => .error .kind

/-- The items that there is room for. -/
def cut (xs : List α) : Slots → Except Misfit (List α)
  | count n => .ok (firstSlots n xs)
  | unset => .ok xs
  | part _ | unfit => .error .kind

/-- The whole number of slots, as messages show it. -/
def whole : Slots → Except Misfit Int
  | count n => .ok n
  | part x => Number.truncate (.real x)
  | unset | unfit => .error .kind

end Slots
end VisualNovel
