set_option autoImplicit false

namespace GrpcStubs

inductive Error where
  /-- The file that defines a type is neither local nor mapped to a crate. -/
  | unmappedFile (file typeName : String)
  | malformedMapping (detail : String)
  | unreadableFile (path reason : String)
  | invalidParameters (detail : String)
  | unboundName (name : String)
  | malformedTemplate (detail : String)
  /-- Two functions of one generated module would have the same name. -/
  | nameClash (service method ident : String)
deriving DecidableEq, Repr

def Error.code : Error → Nat
  | .unmappedFile .. => 1
  | .malformedMapping .. => 2
  | .unreadableFile .. => 3
  | .invalidParameters .. => 4
  | .unboundName .. => 5
  | .malformedTemplate .. => 6
  | .nameClash .. => 7

def Error.message : Error → String
  | .unmappedFile file typeName =>
    s!"unmapped dependency: `{file}` (defining `{typeName}`) is not in the crate mapping"
  | .malformedMapping detail => s!"malformed crate mapping file: {detail}"
  | .unreadableFile path reason => s!"failed to read {path}: {reason}"
  | .invalidParameters detail => s!"invalid parameters: {detail}"
  | .unboundName name => s!"template references undefined variable `{name}`"
  | .malformedTemplate detail => s!"malformed template: {detail}"
  | .nameClash service method ident =>
    s!"method `{method}` of `{service}` generates `{ident}`, which is already defined"

end GrpcStubs
