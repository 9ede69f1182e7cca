/-!
# Log entries

What the library reports beside its results: a level and a text, in the order of the reports.
-/
namespace VisualNovel.Log

/-- How grave a report is. -/
inductive Level where
  | debug
  | info
  | warning
  | error
  deriving DecidableEq, Repr

/-- One report. -/
structure Entry where
  level : Level
  text : String
  deriving DecidableEq, Repr

/-- A detail of the normal course. -/
def debug (text : String) : Entry := ⟨.debug, text⟩

/-- A step of the normal course. -/
def info (text : String) : Entry := ⟨.info, text⟩

/-- Something that is passed over. -/
def warning (text : String) : Entry := ⟨.warning, text⟩

/-- Something that could not be done. -/
def error (text : String) : Entry := ⟨.error, text⟩

end VisualNovel.Log
