import GrpcStubs.Client.Skeleton
import GrpcStubs.Stub

set_option autoImplicit false

namespace GrpcStubs.Client
open Template Stub

def commonFunctions : List String :=
  ["new", "with_origin", "with_interceptor", "send_compressed", "accept_compressed",
   "max_decoding_message_size", "max_encoding_message_size"]

def moduleName (service : Service) : String :=
  service.moduleStem ++ "_client"

def methodSteps (ctx : Context) (service : Service) (method : Method) : List Step :=
  [.emptyLine, heading method] ++
  withTypes ctx method fun request response =>
    [.template
      [.text "ident" method.ident, .text "request" request, .text "response" response,
        .text "codec" codec, .text "path" (service.route method),
        .text "service_name" service.fullName, .text "method_name" method.name]
      (methodTemplate method.shape)]

def steps (ctx : Context) (service : Service) : List Step :=
  unlessClash service commonFunctions
    [.template
      [.text "client_mod" (moduleName service), .text "client_ident" (service.ident ++ "Client"),
        .text "service_doc" (DocComment.render service.comments.preferred),
        .block "methods" (service.methods.flatMap (methodSteps ctx service))]
      moduleTemplate]

end GrpcStubs.Client
