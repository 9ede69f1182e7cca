import VisualNovel.Json.Value
/-!
# Parts of JSON values

The parts of a JSON value, and values made of parts. A part that is missing or of another kind
counts as a default, so that what reads a document says what an empty one means.
-/
namespace VisualNovel
namespace Json

/-- The member of an object with a name; null without one. -/
def field (name : String) (j : Json) : Json := (j.get? name).getD .null

/-- The items of a list. -/
def items (j : Json) : List Json := j.arr?.getD []

/-- The members of an object. -/
def members : Json → List (String × Json)
  | obj ms => ms
  | _ => []

/-- What a value holds, one after the other: the items of a list, the names of an object, the
characters of a string. -/
def entries? : Json → Option (List Json)
  | arr items => some items
  | obj ms => some (ms.map fun m => .str m.1)
  | str s => some (s.toList.map fun c => .str (.ofList [c]))
  | _ => none

/-- A text. -/
def textOr (default : String) (j : Json) : String := j.str?.getD default

/-- The text of a member. -/
def text (name : String) (j : Json) : String := (j.field name).textOr ""

/-- The texts of a list. -/
def texts (j : Json) : List String := j.items.filterMap str?

/-- An integer. -/
def intOr (default : Int) : Json → Int
  | int n => n
  | _ => default

/-- An integer, zero if there is none. -/
def toInt (j : Json) : Int := j.intOr 0

/-- The integer that a number is equal to. -/
def whole? (j : Json) : Option Int :=
  match j.number with
  | .ok (.int n) => some n
  | .ok (.real x) => (Number.floor? x).filter fun n => Number.same (.int n) (.real x)
  | .error _ => none

/-- What stands for all values that look up the same as this one: an integer for a truth value and
for a double that is equal to it. -/
def code (j : Json) : Json := j.whole?.elim j int

/-- The integers of a list. -/
def ints (j : Json) : List Int := j.items.map toInt

/-- A natural; one that is missing or negative counts as zero. -/
def toNat (j : Json) : Nat := j.toInt.toNat

/-- The greatest natural that is at most a number; nothing if there is no bound. What is neither a
number nor null allows nothing. -/
def limit? : Json → Option Nat
  | null => none
  | int n => some n.toNat
  | bool b => some b.toNat
  | real x => if x.isInf && 0 < x then none else some ((Number.floor? x).getD 0).toNat
  | _ => some 0

/-- A truth value. -/
def boolOr (default : Bool) : Json → Bool
  | bool b => b
  | _ => default

/-- Whether a member counts as true. -/
def flag (name : String) (default : Bool) (j : Json) : Bool :=
  ((j.get? name).map isTruthy).getD default

/-- A natural as a value. -/
def ofNat (n : Nat) : Json := .int n

/-- Null, or the value of what there is. -/
def ofOption (f : α → Json) (x : Option α) : Json := x.elim null f

/-- A list of values. -/
def ofList (f : α → Json) (xs : List α) : Json := arr (xs.map f)

/-- A list of texts. -/
def ofTexts (ts : List String) : Json := ofList str ts

end Json

/-- Whether two values are the same key. -/
def sameKey (a b : Json) : Bool := a.code = b.code

theorem sameKey_iff {a b : Json} : sameKey a b = true ↔ a.code = b.code := decide_eq_true_iff

theorem sameKey_comm (a b : Json) : sameKey a b = sameKey b a := by
  unfold sameKey
  rw [decide_eq_decide]
  exact eq_comm

theorem sameKey_trans {a b c : Json} (hab : sameKey a b = true) (hbc : sameKey b c = true) :
    sameKey a c = true := by
  rw [sameKey_iff] at *
  exact hab.trans hbc

end VisualNovel
