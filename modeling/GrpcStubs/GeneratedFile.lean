import GrpcStubs.Client
import GrpcStubs.Server

set_option autoImplicit false

namespace GrpcStubs
open Template

structure GeneratedFile where
  name : String
  content : String
deriving DecidableEq, Repr

def outputName (file : String) : String :=
  .ofList ((Text.beforeEnd ".proto".toList file.toList).getD file.toList) ++ "_grpc.pb.rs"

def Service.halves (ctx : Context) (service : Service) : List (List Step) :=
  (if ctx.options.buildClient then [Client.steps ctx service] else []) ++
  (if ctx.options.buildServer then [Server.steps ctx service] else [])

def Service.fragments (ctx : Context) (service : Service) : Except Error (List String) :=
  (service.halves ctx).mapM Step.render

def SchemaFile.generate (options : Options) (file : SchemaFile) :
    Except Error (Option GeneratedFile) := do
  if file.services.isEmpty then return none
  let fragments ← file.services.mapM (Service.fragments ⟨options, file.name⟩)
  return some ⟨outputName file.name, String.join fragments.flatten⟩

end GrpcStubs
