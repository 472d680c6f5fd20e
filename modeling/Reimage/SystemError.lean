/-
  What the operating system says when it refuses an operation on a file.
-/
namespace Reimage

/-- Why an operation on a file was refused. -/
inductive SystemError
  | notFound
  | alreadyExists
  | notDirectory
  | isDirectory
  | nameTooLong
  /-- Symbolic links lead too far, or in a circle. -/
  | tooManyLinks
  /-- A path that holds a NUL character names nothing. -/
  | nulInName
  /-- The contents are not well-formed text. -/
  | notText
  /-- Any other reason, in the system's words. -/
  | other (text : String)
  deriving DecidableEq, Repr, Inhabited

/-- The reason in words. -/
def SystemError.text : SystemError → String
  | .notFound => "No such file or directory (os error 2)"
  | .alreadyExists => "File exists (os error 17)"
  | .notDirectory => "Not a directory (os error 20)"
  | .isDirectory => "Is a directory (os error 21)"
  | .nameTooLong => "File name too long (os error 36)"
  | .tooManyLinks => "Too many levels of symbolic links (os error 40)"
  | .nulInName => "file name contained an unexpected NUL byte"
  | .notText => "stream did not contain valid UTF-8"
  | .other text => text

end Reimage
