import VisualNovel.Files.Error
import VisualNovel.Misfit
/-!
# Faults

Why something that is under way breaks off: a value does not fit, or a file cannot be used.
-/
namespace VisualNovel

/-- Why something breaks off. -/
inductive Fault where
  | misfit (e : Misfit)
  | file (e : Files.FileError)
  deriving DecidableEq, Repr

end VisualNovel
