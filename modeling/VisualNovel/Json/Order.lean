import VisualNovel.Json.Value
/-!
# Order of JSON values

Values compare by what they stand for: a truth value is one or zero, an integer equals the double of
the same value, and the members of an object have no order. Only numbers, texts and lists come one
before the other, each among themselves; lists by their first items that differ, or else the shorter
one first.

Results:
* `sameItems_length`: lists with the same items are equally long.
* `lessItems_nil`: no list comes before the empty one.
-/
namespace VisualNovel.Json

mutual

/-- Whether two values have the same value. Here even a double that is not a number is itself. -/
def same : (a b : Json) → Bool
  | arr xs, arr ys => sameItems xs ys
  | obj xs, obj ys => xs.length == ys.length && sameMembers xs ys
  | a, b =>
    match a.number, b.number with
    | .ok m, .ok n => m = n || Number.same m n
    | _, _ => a = b

/-- Whether two lists have the same items. -/
def sameItems : (xs ys : List Json) → Bool
  | [], [] => true
  | x :: xs, y :: ys => same x y && sameItems xs ys
  | _, _ => false

/-- Whether members are there with the same values. -/
def sameMembers : (xs ys : List (String × Json)) → Bool
  | [], _ => true
  | (name, x) :: xs, ys => (ys.lookup name).any (same x ·) && sameMembers xs ys

end

/-- Whether two values are equal; a double that is not a number does not equal itself. -/
def equals (a b : Json) : Bool :=
  match a, b with
  | real x, real y => x == y
  | a, b => same a b

mutual

/-- Whether a value comes before another. -/
def less : (a b : Json) → Except Misfit Bool
  | str a, str b => .ok (decide (a < b))
  | arr xs, arr ys => lessItems xs ys
  | a, b => do return Number.lt (← a.number) (← b.number)

/-- Whether a list comes before another. -/
def lessItems : (xs ys : List Json) → Except Misfit Bool
  | _, [] => .ok false
  | [], _ :: _ => .ok true
  | x :: xs, y :: ys => if same x y then lessItems xs ys else less x y

end

/-- Lists with the same items are equally long. -/
theorem sameItems_length {xs ys : List Json} (h : sameItems xs ys = true) :
    xs.length = ys.length := by
  induction xs generalizing ys with
  | nil =>
    cases ys with
    | nil => rfl
    | cons y ys => simp [sameItems] at h
  | cons x xs ih =>
    cases ys with
    | nil => simp [sameItems] at h
    | cons y ys =>
      simp only [sameItems, Bool.and_eq_true] at h
      simp [ih h.2]

/-- No list comes before the empty one. -/
theorem lessItems_nil (xs : List Json) : lessItems xs [] = .ok false := by
  cases xs <;> rfl

end VisualNovel.Json
