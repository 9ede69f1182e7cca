import VisualNovel.Number
/-!
# JSON values

Integers and doubles are kept apart, and an object keeps its members in the order in which their
names first appeared.
-/
namespace VisualNovel

/-- A JSON value. -/
inductive Json where
  | null
  | bool (b : Bool)
  | int (n : Int)
  | real (x : Float)
  | str (s : String)
  | arr (items : List Json)
  | obj (members : List (String × Json))
  deriving Inhabited

namespace Json

/-- The member of an object with a name. -/
def get? (name : String) : Json → Option Json
  | obj members => members.lookup name
  | _ => none

/-- A string. -/
def str? : Json → Option String
  | str s => some s
  | _ => none

/-- The items of a list. -/
def arr? : Json → Option (List Json)
  | arr items => some items
  | _ => none

/-- The value a number is written as. -/
def ofNumber : Number → Json
  | .int n => int n
  | .real x => real x

/-- Whether a value counts as true: all do but null, zeros, and what is empty. -/
def isTruthy : Json → Bool
  | null => false
  | bool b => b
  | int n => n != 0
  | real x => x != 0
  | str s => s != ""
  | arr items => !items.isEmpty
  | obj members => !members.isEmpty

/-- Whether things can be looked up by a value: by all but lists and objects. -/
def isKey : Json → Bool
  | arr _ | obj _ => false
  | _ => true

/-! ## Values where a number or a text is needed -/

/-- A number; a truth value counts as one or zero. -/
def number : Json → Except Misfit Number
  | int n => .ok (.int n)
  | real x => .ok (.real x)
  | bool b => .ok (.int (if b then 1 else 0))
  | _ => .error .kind

/-- A number that counts things, which a double cannot. -/
def count : Json → Except Misfit Int
  | int n => .ok n
  | bool b => .ok (if b then 1 else 0)
  | _ => .error .kind

/-- How much a value holds: the characters of a string, the items of a list, the members of an
object. -/
def size : Json → Except Misfit Nat
  | str s => .ok s.length
  | arr items => .ok items.length
  | obj members => .ok members.length
  | _ => .error .kind

/-- A text. -/
def asText : Json → Except Misfit String
  | str s => .ok s
  | _ => .error .kind

/-! ## Equality -/

mutual

/-- Decides whether two values are the same. -/
def decideEq : (a b : Json) → Decidable (a = b)
  | null, b => by cases b <;> first | exact isTrue rfl | exact isFalse nofun
  | bool x, b => by
    cases b with
    | bool y => exact decidable_of_iff (x = y) (by simp)
    | _ => exact isFalse nofun
  | int x, b => by
    cases b with
    | int y => exact decidable_of_iff (x = y) (by simp)
    | _ => exact isFalse nofun
  | real x, b => by
    cases b with
    | real y => exact decidable_of_iff (x = y) (by simp)
    | _ => exact isFalse nofun
  | str x, b => by
    cases b with
    | str y => exact decidable_of_iff (x = y) (by simp)
    | _ => exact isFalse nofun
  | arr xs, b => by
    cases b with
    | arr ys => exact @decidable_of_iff _ (xs = ys) (by simp) (decideEqItems xs ys)
    | _ => exact isFalse nofun
  | obj xs, b => by
    cases b with
    | obj ys => exact @decidable_of_iff _ (xs = ys) (by simp) (decideEqMembers xs ys)
    | _ => exact isFalse nofun

/-- Decides whether two lists of values are the same. -/
def decideEqItems : (a b : List Json) → Decidable (a = b)
  | [], [] => isTrue rfl
  | [], _ :: _ => isFalse nofun
  | _ :: _, [] => isFalse nofun
  | x :: xs, y :: ys =>
    match decideEq x y, decideEqItems xs ys with
    | isTrue h, isTrue hs => isTrue (by rw [h, hs])
    | isFalse h, _ => isFalse fun e => h (List.cons.inj e).1
    | _, isFalse hs => isFalse fun e => hs (List.cons.inj e).2

/-- Decides whether two lists of members are the same. -/
def decideEqMembers : (a b : List (String × Json)) → Decidable (a = b)
  | [], [] => isTrue rfl
  | [], _ :: _ => isFalse nofun
  | _ :: _, [] => isFalse nofun
  | (m, x) :: xs, (n, y) :: ys =>
    match decEq m n, decideEq x y, decideEqMembers xs ys with
    | isTrue hn, isTrue h, isTrue hs => isTrue (by rw [hn, h, hs])
    | isFalse hn, _, _ => isFalse fun e => hn (Prod.mk.inj (List.cons.inj e).1).1
    | _, isFalse h, _ => isFalse fun e => h (Prod.mk.inj (List.cons.inj e).1).2
    | _, _, isFalse hs => isFalse fun e => hs (List.cons.inj e).2

end

instance : DecidableEq Json := decideEq

end Json
end VisualNovel
