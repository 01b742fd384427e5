import CartTokens.Path

/-!
# Failures

What can go wrong when files are read, written, counted or combined, and the wording of it.
-/

namespace CartTokens

/-- Why the file system refuses an operation. -/
inductive DiskFault where
  | notFound
  | unreadable
  | notDirectory
  | isDirectory
  | nameTooLong
  | tooManyLinks
  | nulInName
  deriving DecidableEq, Repr

/-- The wording of the file system. -/
def DiskFault.message : DiskFault → Text
  | .notFound => "No such file or directory (os error 2)".toList
  | .unreadable => "Input/output error (os error 5)".toList
  | .notDirectory => "Not a directory (os error 20)".toList
  | .isDirectory => "Is a directory (os error 21)".toList
  | .nameTooLong => "File name too long (os error 36)".toList
  | .tooManyLinks => "Too many levels of symbolic links (os error 40)".toList
  | .nulInName => "file name contained an unexpected NUL byte".toList

/-- Why an operation on files failed. -/
inductive Failure where
  | fileRead (path : Path) (cause : DiskFault)
  | fileWrite (path : Path) (cause : DiskFault)
  | rootNotFound (root : Path)
  | sectionConflict (names : List Text)
  | noSelection
  deriving DecidableEq, Repr

/-- The wording of a failure. -/
def Failure.message : Failure → Text
  | .fileRead path cause =>
    "Failed to read file '".toList ++ path.text ++ "': ".toList ++ cause.message
  | .fileWrite path cause =>
    "Failed to write file '".toList ++ path.text ++ "': ".toList ++ cause.message
  | .rootNotFound root => "Invalid configuration: Path not found: ".toList ++ root.text
  | .sectionConflict names =>
    "Multiple files contain the following sections: ".toList ++ Text.join ", ".toList names
      ++ ". Only one of each is allowed.".toList
  | .noSelection => "No PICO-8 files selected".toList

end CartTokens
