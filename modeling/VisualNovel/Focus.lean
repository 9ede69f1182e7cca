import VisualNovel.Json.Order
/-!
# Focus

At most one target has the focus. Targets stand in an order through which the focus can be moved by
steps, from the last to the first and back; from outside the order it goes to the first.

Mostly a target is a button or the choice in a slot, but any value may be one.
-/
namespace VisualNovel

/-- What can have the focus. -/
inductive Target where
  /-- A button with a name. -/
  | button (name : String)
  /-- The choice in a slot. -/
  | slot (index : Int)
  /-- A value that is neither a text nor an integer. -/
  | other (value : Json)
  deriving DecidableEq

namespace Target

/-- The value that stands for a target. -/
def value : Target → Json
  | button name => .str name
  | slot index => .int index
  | other value => value

/-- The target that a value stands for; null stands for none. -/
def ofValue? : Json → Option Target
  | .null => none
  | .str name => some (button name)
  | .int index => some (slot index)
  | value => some (other value)

/-- Whether two targets are equal, by the values that stand for them. -/
def same : (s t : Option Target) → Bool
  | some (other v), some t => v.equals t.value
  | some s, some (other v) => s.value.equals v
  | s, t => s = t

end Target

/-- The target that has the focus, and the order of the targets. -/
structure Focus where
  focused : Option Target := none
  order : List (Option Target) := []
  deriving DecidableEq

/-- The focus before and after a change. -/
structure FocusChange where
  old : Option Target
  new : Option Target
  deriving DecidableEq

namespace Focus

/-- Gives a target the focus, or takes it away; the result has the change, if it is one. -/
def set (t : Option Target) (f : Focus) : Focus × Option FocusChange :=
  if Target.same t f.focused then (f, none)
  else ({ f with focused := t }, some ⟨f.focused, t⟩)

/-- The place in the order of the target that has the focus. -/
def place? (f : Focus) : Option Nat := f.order.findIdx? (Target.same · f.focused)

/-- Where `delta` steps through the order lead to. -/
def neighbour? (delta : Int) (f : Focus) : Option (Option Target) :=
  match f.place? with
  | none => f.order.head?
  | some i => f.order[((i + delta) % f.order.length).toNat]?

/-- Moves the focus `delta` steps through the order. -/
def navigate (delta : Int) (f : Focus) : Focus × Option FocusChange :=
  match f.neighbour? delta with
  | none => (f, none)
  | some t => f.set t

/-- Moves the focus by the steps that any value stands for. They only count inside the order. -/
def navigateBy (delta : Json) (f : Focus) : Except Misfit (Focus × Option FocusChange) :=
  if f.place?.isSome then delta.count.map (f.navigate ·) else .ok (f.navigate 0)

end Focus
end VisualNovel
