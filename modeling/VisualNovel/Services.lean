import VisualNovel.Assoc
import VisualNovel.Log
/-!
# The service registry

A table of the instances that the screens of a game share. A key keeps its first instance: to
provide another one is reported and changes nothing. A key may also be provided with nothing; it
counts as present, and the next instance takes it.

Results:
* `get?_provide`: after `provide` a key has the instance that `provide` returns.
-/
namespace VisualNovel

/-- The instances by key. -/
abbrev Services (κ ι : Type) := List (κ × Option ι)

namespace Services
variable {κ ι : Type} [DecidableEq κ]

/-- The instance of a key. -/
def get? (s : Services κ ι) (key : κ) : Option ι := (s.lookup key).join

/-- Whether a key was provided. -/
def contains (s : Services κ ι) (key : κ) : Bool := (s.lookup key).isSome

/-- The words for a service that was not provided. -/
def missing (name : String) : String := "Service not provided: " ++ name

/-- What a key was provided with, which it must have been. -/
def require (name : κ → String) (s : Services κ ι) (key : κ) : Except String (Option ι) :=
  (s.lookup key).elim (.error (missing (name key))) .ok

/-- Provides a key; the result is the instance that counts from now on. -/
def provide [DecidableEq ι] (name : κ → String) (key : κ) (instance? : Option ι)
    (s : Services κ ι) : Services κ ι × Option ι × List Log.Entry :=
  match s.get? key with
  | some first =>
    let report := if instance? = some first then [] else
      [Log.error ("Multiple instances of " ++ name key ++ " detected; keeping the first one")]
    (s, some first, report)
  | none => (Assoc.upsert key instance? s, instance?, [])

/-- Removes a key. -/
def remove (s : Services κ ι) (key : κ) : Services κ ι := Assoc.erase key s

end Services

end VisualNovel
