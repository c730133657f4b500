import ComponentPages.Text.Basic

/-!
# File errors

- **`FileError`** — why a file or directory cannot be used; **`FileError.message`** says so.
-/

namespace ComponentPages

/-- Why a file or directory cannot be used. -/
inductive FileError where
  /-- There is nothing under the path. -/
  | notFound
  /-- Something that is not a directory stands in the way. -/
  | notDirectory
  /-- A directory stands where a file is wanted. -/
  | isDirectory
  /-- Something stands where a directory is to be made. -/
  | alreadyExists
  /-- A name or path is too long. -/
  | nameTooLong
  /-- The content is not text. -/
  | notText
  /-- Anything else, in the words of the system. -/
  | other (message : Text)
deriving DecidableEq, Repr

/-- The sentence that reports an error. -/
def FileError.message : FileError → Text
  | notFound => "No such file or directory (os error 2)".toList
  | notDirectory => "Not a directory (os error 20)".toList
  | isDirectory => "Is a directory (os error 21)".toList
  | alreadyExists => "File exists (os error 17)".toList
  | nameTooLong => "File name too long (os error 36)".toList
  | notText => "stream did not contain valid UTF-8".toList
  | other message => message

end ComponentPages
