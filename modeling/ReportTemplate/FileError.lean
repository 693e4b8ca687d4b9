/-! Failures of reading and writing files. -/

namespace ReportTemplate

/-- Why a file cannot be read or written. -/
inductive FileError where
  | absent
  | notText
  | isDirectory
  | notDirectory
  | occupied
  | other (reason : String)
  deriving DecidableEq, Repr

def FileError.message : FileError → String
  | .absent => "No such file or directory (os error 2)"
  | .notText => "stream did not contain valid UTF-8"
  | .isDirectory => "Is a directory (os error 21)"
  | .notDirectory => "Not a directory (os error 20)"
  | .occupied => "File exists (os error 17)"
  | .other reason => reason

end ReportTemplate
