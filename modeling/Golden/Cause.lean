/-!
# Golden.Cause — why a file or a stream refused

Every operation on files, streams and writers fails for one of the causes below.  The wording is
fixed by what users and logs have always been shown: the operating system's own sentences with
their error numbers, and one sentence each for the failures that have no number.
-/

namespace Golden

/-- Why an operation on a file, a stream or a writer failed. -/
inductive Cause
  | notFound
  | alreadyExists
  | notADirectory
  | isADirectory
  | nameTooLong
  /-- A path with a NUL character in it names nothing. -/
  | nulInName
  /-- The data ended before a read was filled. -/
  | endOfData
  | invalidText
  /-- A writer of limited capacity has none left. -/
  | sinkFull
  /-- A failure that comes with its own words. -/
  | other (text : String)
  deriving DecidableEq, Repr

namespace Cause

def message : Cause → String
  | .notFound => "No such file or directory (os error 2)"
  | .alreadyExists => "File exists (os error 17)"
  | .notADirectory => "Not a directory (os error 20)"
  | .isADirectory => "Is a directory (os error 21)"
  | .nameTooLong => "File name too long (os error 36)"
  | .nulInName => "file name contained an unexpected NUL byte"
  | .endOfData => "failed to fill whole buffer"
  | .invalidText => "stream did not contain valid UTF-8"
  | .sinkFull => "sink full"
  | .other text => text

end Cause

end Golden
