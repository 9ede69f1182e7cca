import VisualNovel.Stage
/-!
# The session

What a dialogue shows at the moment: its phase, the current line and how much of it is revealed, and
the choices that are pending.
-/
namespace VisualNovel

/-- The phases of a dialogue. -/
inductive Phase where
  | idle
  | revealing
  | awaitingChoice
  | awaitingAdvance
  | ended
  deriving DecidableEq, Repr

/-- The state of a dialogue that its screen shows. -/
structure Session where
  phase : Phase := .idle
  /-- Whether a dialogue is running. -/
  active : Bool := false
  line : String := ""
  /-- The number of characters of the line that are shown. -/
  revealed : Nat := 0
  /-- Whether the line is being revealed. -/
  revealing : Bool := false
  /-- Whether the rest of the line is to be shown at once. -/
  skip : Bool := false
  /-- The choices on offer. -/
  pending : List Choice := []
  deriving DecidableEq, Repr

namespace Session

/-- Whether the whole line is shown. -/
def isLineComplete (s : Session) : Bool := s.line.length ≤ s.revealed

/-- A line that was fetched just now. -/
def beginLine (text : String) (s : Session) : Session :=
  { s with line := text, revealed := 0, pending := [], phase := .revealing }

/-- The dialogue is over. -/
def finish (s : Session) : Session :=
  { s with active := false, revealing := false, skip := false, pending := [], phase := .ended }

/-- The dialogue is broken off. -/
def reset (s : Session) : Session :=
  { s with active := false, revealing := false, skip := false, pending := [], phase := .idle }

end Session
end VisualNovel
