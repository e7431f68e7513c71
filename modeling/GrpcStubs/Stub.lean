import GrpcStubs.DocComment
import GrpcStubs.Template.Step
import GrpcStubs.Path.Type

set_option autoImplicit false

namespace GrpcStubs.Stub
open Template

def codec : String :=
  "tonic_protobuf::ProtoCodec"

/-- How far a generated module is below the root of its file. -/
def moduleDepth : Nat := 1

/-- The first method whose function has a name that is taken, by `taken` or by an earlier one. -/
def clash? (taken : List String) : List Method → Option Method
  | [] => none
  | method :: methods =>
    if taken.contains method.ident then some method else clash? (method.ident :: taken) methods

def unlessClash (service : Service) (reserved : List String) (steps : List Step) : List Step :=
  match clash? reserved service.methods with
  | some method => [.fail (.nameClash service.fullName method.name method.ident)]
  | none => steps

def deprecation (method : Method) : String :=
  if method.deprecated then "#[deprecated]" else ""

def heading (method : Method) : Step :=
  .template
    [.text "doc" (DocComment.render method.comments.preferred),
      .text "deprecated" (deprecation method)]
    (ofLines ["    $doc$", "    $deprecated$"])

def typePaths (ctx : Context) (method : Method) : Except Error (String × String) := do
  let request ← ctx.typePath moduleDepth method.input
  let response ← ctx.typePath moduleDepth method.output
  return (request.render, response.render)

def withTypes (ctx : Context) (method : Method) (steps : String → String → List Step) :
    List Step :=
  match typePaths ctx method with
  | .ok (request, response) => steps request response
  | .error error => [.fail error]

end GrpcStubs.Stub
