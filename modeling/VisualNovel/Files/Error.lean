/-!
# Failures of files

Why a file cannot be opened or read.
-/
namespace VisualNovel.Files

/-- Why a file cannot be opened or read. -/
inductive FileError where
  | notFound
  | isDirectory
  | notDirectory
  /-- A name on the way, or the whole path, is too long. -/
  | nameTooLong
  /-- The path can be no path. -/
  | badPath
  /-- The path cannot be written as bytes. -/
  | unwritable
  /-- The bytes are no UTF-8. -/
  | notText
  deriving DecidableEq, Repr

/-- Whether a failure comes from the disk, and neither from the path nor from the bytes read. -/
def FileError.isSystem : FileError → Bool
  | badPath | unwritable | notText => false
  | _ => true

/-- The name of a failure in messages. -/
def FileError.name : FileError → String
  | notFound => "FileNotFoundError"
  | isDirectory => "IsADirectoryError"
  | notDirectory => "NotADirectoryError"
  | nameTooLong => "OSError"
  | badPath => "ValueError"
  | unwritable => "UnicodeEncodeError"
  | notText => "UnicodeDecodeError"

end VisualNovel.Files
