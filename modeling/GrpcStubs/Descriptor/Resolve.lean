import GrpcStubs.Failure
import GrpcStubs.Descriptor.Index

set_option autoImplicit false

namespace GrpcStubs.Descriptor

def servicesField : Int := 6

def methodsField : Int := 2

/-- The comments listed for a path: those of the last location that has it. -/
def File.commentsAt (file : File) (path : List Int) : Comments :=
  match file.locations.reverse.find? fun location => location.path == path with
  | some location => ⟨location.leading, location.trailing⟩
  | none => {}

def File.serviceComments (file : File) (service : Nat) : Comments :=
  file.commentsAt [servicesField, service]

def File.methodComments (file : File) (service method : Nat) : Comments :=
  file.commentsAt [servicesField, service, methodsField, method]

/-- The number of elements of one kind that can be told apart: a position is signed and has 32
    bits. -/
def positionLimit : Nat := 0x80000000

def checkPosition (task : Failure.Task) (position : Nat) : Except Failure Unit :=
  if position < positionLimit then .ok () else .error ⟨[task], .outOfRange⟩

def findMessage (index : Index) (typeName : String) :
    Except Failure GrpcStubs.Message :=
  match index.find? typeName with
  | some message => .ok message
  | none => .error ⟨[], .undefinedMessage typeName⟩

def Method.resolve (index : Index) (comments : Comments) (method : Method) :
    Except Failure GrpcStubs.Method := do
  let input ← findMessage index method.input
  let output ← findMessage index method.output
  return {
    name := method.name, input, output, comments
    shape := .ofStreams method.clientStreaming method.serverStreaming
    deprecated := method.options.any (·.deprecated) }

def Service.resolve (index : Index) (file : File) (position : Nat) (service : Service) :
    Except Failure GrpcStubs.Service := do
  let methods ← service.methods.zipIdx.mapM fun (method, i) => do
    checkPosition .countMethods i
    method.resolve index (file.methodComments position i)
  return ⟨file.package, service.name, methods, file.serviceComments position⟩

def File.resolve (index : Index) (file : File) : Except Failure SchemaFile := do
  let services ← file.services.zipIdx.mapM fun (service, i) => do
    checkPosition .countServices i
    (service.resolve index file i).mapError (.during (.readService service.name))
  return ⟨file.name, services⟩

end GrpcStubs.Descriptor
