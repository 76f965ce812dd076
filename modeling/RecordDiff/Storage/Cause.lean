/-!
Why a file operation is refused. Each cause is a fact about the tree of files, and `Cause.message`
gives the words in which a system of POSIX family reports it.
-/

namespace RecordDiff.Storage

/-- The cause of a refused file operation. -/
inductive Cause where
  /-- A name on the way, or the last one, does not exist. -/
  | missing
  /-- The place is taken by something that the operation may not replace. -/
  | occupied
  /-- The path ends in a dot, which cannot be renamed onto. -/
  | busy
  /-- A file stands where a directory is needed. -/
  | notDirectory
  /-- A directory stands where a file is needed. -/
  | isDirectory
  /-- A name has more than 255 octets, or a path 4096 octets or more. -/
  | nameTooLong
  /-- The path holds a NUL character. -/
  | nulInName
  /-- The content was to be text, and is not UTF-8. -/
  | notText
  deriving DecidableEq, Repr

/-- The cause in words. -/
def Cause.message : Cause → String
  | .missing => "No such file or directory (os error 2)"
  | .occupied => "File exists (os error 17)"
  | .busy => "Device or resource busy (os error 16)"
  | .notDirectory => "Not a directory (os error 20)"
  | .isDirectory => "Is a directory (os error 21)"
  | .nameTooLong => "File name too long (os error 36)"
  | .nulInName => "file name contained an unexpected NUL byte"
  | .notText => "stream did not contain valid UTF-8"

end RecordDiff.Storage
