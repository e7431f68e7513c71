import GrpcStubs.Error
import GrpcStubs.Path
import GrpcStubs.Text.Blank
import GrpcStubs.Text.Split

set_option autoImplicit false

namespace GrpcStubs

structure Parameter where
  key : String
  value : String
deriving DecidableEq, Repr

namespace Parameter
open Text

inductive Fault where
  | noKey (segment : String)
  | noMappingFile
  | notBoolean (key value : String)
  | notModulePath (value : String) (fault : Path.Fault)
  | unknown (key : String)
deriving DecidableEq, Repr

def Fault.message : Fault → String
  | .noKey segment => s!"parameter `{segment}` has no key"
  | .noMappingFile => "`crate_mapping` requires a file path"
  | .notBoolean key value => s!"`{key}` expects `true` or `false`, got `{value}`"
  | .notModulePath value fault =>
    let reason := fault.message
    s!"`message_module_path` value `{value}` is not a module path: {reason}"
  | .unknown key => s!"unknown parameter `{key}`"

def Fault.toError (fault : Fault) : Error :=
  .invalidParameters fault.message

def ofSegment (segment : List Char) : Except Fault Parameter :=
  let (key, value) := (splitFirst '=' segment).getD (segment, [])
  if allBlank key then .error (.noKey (.ofList segment))
  else .ok ⟨.ofList (trim key), .ofList (trim value)⟩

def segments (text : String) : List (List Char) :=
  (splitAt ',' text.toList).filter fun segment => !segment.isEmpty

def parseAll (text : String) : Except Fault (List Parameter) :=
  (segments text).mapM ofSegment

/-- A switch is on when it is named without a value. -/
def switch (p : Parameter) : Except Fault Bool :=
  if p.value = "" ∨ p.value = "true" then .ok true
  else if p.value = "false" then .ok false
  else .error (.notBoolean p.key p.value)

end Parameter

end GrpcStubs
