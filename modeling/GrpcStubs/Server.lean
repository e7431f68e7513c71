import GrpcStubs.Server.Skeleton
import GrpcStubs.Stub

set_option autoImplicit false

namespace GrpcStubs.Server
open Template Stub

def moduleName (service : Service) : String :=
  service.moduleStem ++ "_server"

def traitSteps (ctx : Context) (method : Method) : List Step :=
  heading method ::
  withTypes ctx method fun request response =>
    [.template [.text "ident" method.ident, .text "request" request, .text "response" response]
      (traitTemplate method.shape)]

def adapterName (method : Method) : String :=
  method.name ++ "Svc"

def routeSteps (ctx : Context) (service : Service) (method : Method) : List Step :=
  withTypes ctx method fun request response =>
    [.template
      [.text "path" (service.route method), .text "trait_ident" service.ident,
        .text "svc_ident" (adapterName method),
        .block "svc_impl"
          [.template
            [.text "trait_ident" service.ident, .text "svc_ident" (adapterName method),
              .text "ident" method.ident, .text "request" request, .text "response" response]
            (adapterTemplate method.shape)],
        .text "codec" codec, .text "grpc_call" method.shape.call]
      routeTemplate]

def steps (ctx : Context) (service : Service) : List Step :=
  unlessClash service []
    [.template
      [.text "server_mod" (moduleName service), .text "trait_ident" service.ident,
        .text "server_ident" (service.ident ++ "Server"), .text "service_name" service.fullName,
        .text "service_doc" (DocComment.render service.comments.preferred),
        .block "trait_methods"
          (List.intercalate [.emptyLine] (service.methods.map (traitSteps ctx))),
        .block "routes" (service.methods.flatMap (routeSteps ctx service))]
      moduleTemplate]

end GrpcStubs.Server
