set_option autoImplicit false

namespace GrpcStubs.Disk

inductive Fault where
  | notFound
  | alreadyExists
  | notDirectory
  | isDirectory
  | nameTooLong
  | nulInPath
  | notText
  | other (message : String)
deriving DecidableEq, Repr

def Fault.message : Fault → String
  | .notFound => "No such file or directory (os error 2)"
  | .alreadyExists => "File exists (os error 17)"
  | .notDirectory => "Not a directory (os error 20)"
  | .isDirectory => "Is a directory (os error 21)"
  | .nameTooLong => "File name too long (os error 36)"
  | .nulInPath => "file name contained an unexpected NUL byte"
  | .notText => "stream did not contain valid UTF-8"
  | .other message => message

/-- A refusal of the machine, for reasons that do not lie in what the disk holds. -/
structure Refusal where
  fault : Fault
  /-- How many bytes of a file were written before. Without a number it was not even opened. -/
  written : Option Nat := none
deriving DecidableEq, Repr

end GrpcStubs.Disk
