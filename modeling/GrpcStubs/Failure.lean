import GrpcStubs.Disk.Fault
import GrpcStubs.Error

set_option autoImplicit false

namespace GrpcStubs

inductive Failure.Cause where
  | generation (error : Error)
  | fileNotProvided (name : String)
  | undefinedMessage (typeName : String)
  | disk (fault : Disk.Fault)
  | undecodable
  | outOfRange
deriving DecidableEq, Repr

def Failure.Cause.message : Failure.Cause → String
  | .generation error => error.message
  | .fileNotProvided name => s!"file `{name}` was requested but not provided"
  | .undefinedMessage typeName => s!"message type `{typeName}` is not defined in the request"
  | .disk fault => fault.message
  | .undecodable => "failed to decode message"
  | .outOfRange => "out of range integral type conversion attempted"

inductive Failure.Task where
  | readParameter
  | countServices
  | countMethods
  | readService (name : String)
  | readFile (name : String)
  | generateFile (name : String)
  | decodeRequest
  | readSet (path : String)
  | decodeSet (path : String)
  | createDirectory (path : String)
  | writeFile (path : String)
deriving DecidableEq, Repr

def Failure.Task.message : Failure.Task → String
  | .readParameter => "invalid plugin parameter"
  | .countServices => "too many services"
  | .countMethods => "too many methods"
  | .readService name => s!"in service `{name}`"
  | .readFile name => s!"failed to read {name}"
  | .generateFile name => s!"failed to generate services for {name}"
  | .decodeRequest => "Invalid CodeGeneratorRequest"
  | .readSet path => s!"Failed to read descriptor set: {path}"
  | .decodeSet path => s!"Invalid descriptor set: {path}"
  | .createDirectory path => s!"Failed to create directory: {path}"
  | .writeFile path => s!"Failed to write {path}"

structure Failure where
  /-- The outermost task first. -/
  tasks : List Failure.Task := []
  cause : Failure.Cause
deriving DecidableEq, Repr

namespace Failure

def during (task : Task) (failure : Failure) : Failure :=
  { failure with tasks := task :: failure.tasks }

def chain (failure : Failure) : List String :=
  failure.tasks.map Task.message ++ [failure.cause.message]

def message (failure : Failure) : String :=
  ": ".intercalate failure.chain

/-- A text of several lines, with `margin` before each line but the first. -/
def hang (margin text : String) : String :=
  .ofList (text.toList.flatMap fun c => if c = '\n' then '\n' :: margin.toList else [c])

/-- The causes below the outermost message, numbered if there are several. -/
def causeLines : List String → List String
  | [] => []
  | [cause] => ["    " ++ hang "    " cause]
  | causes => causes.zipIdx.map fun (cause, n) => s!"    {n}: " ++ hang "       " cause

def report (failure : Failure) : String :=
  match failure.chain with
  | [] => ""
  | [outermost] => s!"Error: {outermost}\n"
  | outermost :: causes =>
    s!"Error: {outermost}\n\nCaused by:\n" ++ String.join ((causeLines causes).map (· ++ "\n"))

end Failure

end GrpcStubs
