set_option autoImplicit false

namespace GrpcStubs.Descriptor

inductive Message where
  | mk (name : String) (nested : List Message)
deriving Repr

structure MethodOptions where
  deprecated : Bool := false
deriving DecidableEq, Repr

structure Method where
  name : String := ""
  input : String := ""
  output : String := ""
  options : Option MethodOptions := none
  clientStreaming : Bool := false
  serverStreaming : Bool := false
deriving DecidableEq, Repr

structure Service where
  name : String := ""
  methods : List Method := []
deriving DecidableEq, Repr

/-- Comments, and the path of field numbers and positions to the element that they belong to. -/
structure Location where
  path : List Int := []
  leading : String := ""
  trailing : String := ""
deriving DecidableEq, Repr

structure File where
  name : String := ""
  package : String := ""
  dependencies : List String := []
  messages : List Message := []
  services : List Service := []
  locations : List Location := []
deriving Repr

end GrpcStubs.Descriptor
