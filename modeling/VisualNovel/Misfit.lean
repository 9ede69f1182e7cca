/-!
# Misfits

A value that comes from outside is taken as it is, and only found out where it is used. This module
has the reasons why it may not fit there.
-/
namespace VisualNovel

/-- Why a value does not fit what is to be done with it. -/
inductive Misfit where
  /-- It is of another kind. -/
  | kind
  /-- It lacks the part that is asked for. -/
  | part
  /-- It is a number that is too great. -/
  | range
  /-- It is of the right kind, but stands for nothing. -/
  | value
  /-- It is zero, and nothing can be divided by it. -/
  | zero
  /-- It asks for more than there is room for. -/
  | room
  /-- It is nested too deeply. -/
  | depth
  deriving DecidableEq, Repr

end VisualNovel
