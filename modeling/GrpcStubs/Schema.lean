import GrpcStubs.Identifier

set_option autoImplicit false

namespace GrpcStubs

/-- A message type with the file that it is recorded for. A nested one is declared in another. -/
inductive Message where
  | outermost (name file : String)
  | nested (parent : Message) (name file : String)
deriving DecidableEq, Repr

namespace Message

def name : Message → String
  | outermost name _ => name
  | nested _ name _ => name

def file : Message → String
  | outermost _ file => file
  | nested _ _ file => file

def inside (parent : Message) (name : String) : Message :=
  nested parent name parent.file

/-- The messages around a message, from the inside out. -/
def around : Message → List Message
  | outermost _ _ => []
  | nested parent _ _ => parent :: parent.around

end Message

structure Comments where
  leading : String := ""
  trailing : String := ""
deriving DecidableEq, Repr

/-- The comment before an element counts, and the one after it only in its absence. -/
def Comments.preferred (comments : Comments) : String :=
  if comments.leading.isEmpty then comments.trailing else comments.leading

inductive Shape where
  | unary
  | serverStreaming
  | clientStreaming
  | streaming
deriving DecidableEq, Repr

namespace Shape

def ofStreams : (clientStreams serverStreams : Bool) → Shape
  | false, false => .unary
  | false, true => .serverStreaming
  | true, false => .clientStreaming
  | true, true => .streaming

def clientStreams : Shape → Bool
  | .clientStreaming | .streaming => true
  | .unary | .serverStreaming => false

def serverStreams : Shape → Bool
  | .serverStreaming | .streaming => true
  | .unary | .clientStreaming => false

def call : Shape → String
  | .unary => "unary"
  | .serverStreaming => "server_streaming"
  | .clientStreaming => "client_streaming"
  | .streaming => "streaming"

end Shape

structure Method where
  name : String
  input : Message
  output : Message
  shape : Shape := .unary
  deprecated : Bool := false
  comments : Comments := {}
deriving DecidableEq, Repr

def Method.ident (method : Method) : String :=
  Identifier.escape (Identifier.snakeCase method.name)

structure Service where
  package : String := ""
  name : String
  methods : List Method := []
  comments : Comments := {}
deriving DecidableEq, Repr

namespace Service

def fullName (service : Service) : String :=
  if service.package.isEmpty then service.name else s!"{service.package}.{service.name}"

def methodFullName (service : Service) (method : Method) : String :=
  s!"{service.fullName}.{method.name}"

def ident (service : Service) : String :=
  Identifier.escape (Identifier.upperCamelCase service.name)

def moduleStem (service : Service) : String :=
  Identifier.snakeCase service.ident

def route (service : Service) (method : Method) : String :=
  s!"/{service.fullName}/{method.name}"

end Service

structure SchemaFile where
  name : String
  services : List Service := []
deriving DecidableEq, Repr

end GrpcStubs
